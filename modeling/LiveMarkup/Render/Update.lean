import LiveMarkup.Render.Instance

/-! # Bringing instances up to date

Every part of an instance is given a new value, in order, and changes no more of the document than
the difference to its old content asks for.  A value that cannot be rendered is reported, and its
part renders empty; all other parts are updated as usual.

Templates and lists nest.  The depth of a part is the number of templates and lists around it, and
beyond the configured limit a part reports instead of rendering.  So the recursion below runs on the
room that is left: the number of levels that may still come. -/

namespace LiveMarkup

variable {σ : Type}

/-- The limits of rendering. -/
structure Config where
  /-- How many times a chain of deferred values is invoked before its part gives up. -/
  maxInvocations : Nat := 16
  /-- How deep templates and lists may nest below the rendered template. -/
  depthLimit : Nat := 64
  deriving DecidableEq, Repr

/-- What parts are updated with, besides their values. -/
structure Setting (σ : Type) where
  environment : Environment σ
  config : Config
  strategies : List (Strategy σ)

/-- Work that may report failures. -/
abbrev RenderM (σ : Type) :=
  StateT (Array Diagnostic) (SceneM σ)

/-- Reports that a part renders empty. -/
def report (part depth : Nat) (error : ResolutionError) : RenderM σ Unit := do
  let diagnostic : Diagnostic := { part, depth, error }
  Stage.note (.reported diagnostic)
  modifyThe (Array Diagnostic) (·.push diagnostic)

namespace Setting

/-- The depth at which the given number of levels is left. -/
def depthAt (setting : Setting σ) (room : Nat) : Nat :=
  setting.config.depthLimit + 1 - room

/-- Resolves the value of an attribute part.  Of the levels allowed for lists, those around the part
are used up. -/
def resolveAttribute (setting : Setting σ) (depth : Nat) (value : Value) : ResolveM σ Value :=
  setting.environment.resolveDeep setting.config.maxInvocations
    (setting.config.depthLimit - depth) value

/-- Names the configured limit in an error about too deep a nesting. -/
def relabel (setting : Setting σ) : ResolutionError → ResolutionError
  | .tooDeep _ => .tooDeep setting.config.depthLimit
  | error => error

end Setting

/-! ## Attributes -/

/-- Commits a resolved value.  If it is refused, the refusal is reported and the empty value is
committed instead. -/
def AttributeBinding.commit (binding : AttributeBinding σ) (part depth : Nat) (value : Value) :
    RenderM σ (AttributeBinding σ) := do
  match ← binding.strategy.commit binding.element binding.part value with
  | .ok () => pure { binding with last := if value.isPrimitive then some value else none }
  | .error error =>
    report part depth error
    match ← binding.strategy.commit binding.element binding.part .empty with
    | .ok () => pure ()
    | .error error => Stage.note (.attributeStuck binding.part.rawName error)
    pure { binding with last := none }

/-- Gives an attribute part a new value.  A value that does not resolve counts as empty, and the
primitive that was committed last is not committed again. -/
def AttributeBinding.update (setting : Setting σ) (binding : AttributeBinding σ)
    (part depth : Nat) (value : Value) : RenderM σ (AttributeBinding σ) := do
  let value ←
    match ← (setting.resolveAttribute depth value).run with
    | .ok value => pure value
    | .error error =>
      report part depth (setting.relabel error)
      pure .empty
  if binding.last.any (·.samePrimitive value) then
    Stage.note .attributeSame
    pure binding
  else binding.commit part depth value

/-! ## Content -/

/-- A way to give an outlet new content; the number is that of the part it belongs to. -/
abbrev OutletUpdate (σ : Type) :=
  Nat → Outlet σ → Value → RenderM σ (Outlet σ)

/-- Gives bindings new values, in order.  The first one belongs to the part with the given
index. -/
def updateBindings (setting : Setting σ) (update : OutletUpdate σ) (depth : Nat) (index : Nat) :
    List (Binding σ) → List Part → List Value → RenderM σ (List (Binding σ))
  | binding :: bindings, part :: parts, value :: values => do
    Stage.note (.updating index depth part.path)
    let first ←
      match binding with
      | .attribute binding => Binding.attribute <$> binding.update setting index depth value
      | .outlet outlet => Binding.outlet <$> update index outlet value
    let rest ← updateBindings setting update depth (index + 1) bindings parts values
    pure (first :: rest)
  | bindings, _, _ => pure bindings

/-- Gives the parts of an instance new values. -/
def Instance.update (setting : Setting σ) (update : OutletUpdate σ) (depth : Nat)
    (inner : Instance σ) (values : List Value) : RenderM σ (Instance σ) := do
  let bindings ←
    updateBindings setting update depth 0 inner.bindings inner.template.blueprint.parts values
  pure (.mk inner.template inner.roots bindings)

namespace Outlet

/-- Removes all output of an outlet, which is vacant then. -/
def vacate (outlet : Outlet σ) : StageM (Outlet σ) := do
  outlet.clear
  pure (.vacant outlet.anchor)

/-- Shows a text.  An empty text makes the outlet vacant. -/
def showText (outlet : Outlet σ) (data : String) : StageM (Outlet σ) := do
  match outlet with
  | .text anchor shown =>
    if shown = data then
      Stage.note .textSame
      pure (.text anchor shown)
    else show' outlet data
  | .vacant _ => show' outlet data
  | .nested _ _ | .items _ _ => show' (← outlet.vacate) data
where
  /-- Shows a text where there is another one or none. -/
  show' (outlet : Outlet σ) (data : String) : StageM (Outlet σ) := do
    if data = "" then outlet.vacate
    else
      Stage.note (.textSet data)
      Stage.setText outlet.anchor data
      pure (.text outlet.anchor data)

/-- Puts the roots of an instance right behind an anchor. -/
def place (part : Nat) (anchor : NodeId) (inner : Instance σ) : StageM Unit := do
  let document := (← get).document
  match document.parent anchor with
  | some parent =>
    let next := document.nextSibling anchor
    inner.roots.forM fun root => Stage.insertBefore parent root next
  | none => Stage.note (.nestedUnplaced part)

/-- Shows a template, in the instance that is there if it is of the same template.  `depth` is the
depth of the parts inside. -/
def showTemplate (setting : Setting σ) (update : OutletUpdate σ) (part depth : Nat)
    (outlet : Outlet σ) (template : Template) (values : List Value) : RenderM σ (Outlet σ) := do
  match outlet with
  | .nested anchor inner =>
    if inner.template = template then
      Stage.note .instanceReused
      .nested anchor <$> inner.update setting update depth values
    else replace
  | _ => replace
where
  /-- Shows the template in a new instance. -/
  replace : RenderM σ (Outlet σ) := do
    outlet.clear
    match ← Instance.make setting.strategies template with
    | .error (missing, error) =>
      Stage.note (.nestedMissing part)
      report missing depth error
      pure (.vacant outlet.anchor)
    | .ok inner =>
      place part outlet.anchor inner
      .nested outlet.anchor <$> inner.update setting update depth values

/-- Creates the anchor of an item behind the given node. -/
def makeAnchor (part item : Nat) (last : NodeId) : StageM NodeId := do
  let anchor ← Stage.create (.text "")
  let document := (← get).document
  match document.parent last with
  | some parent => Stage.insertBefore parent anchor (document.nextSibling last)
  | none => Stage.note (.itemUnplaced part item)
  pure anchor

/-- Gives the outlets of a list its items, which start with the item of the given index, behind the
node `last`.  Outlets that are missing are made, and those in excess are removed. -/
def showItems (update : OutletUpdate σ) (part item : Nat) (last : NodeId) :
    List (Outlet σ) → List Value → RenderM σ (List (Outlet σ))
  | outlet :: outlets, value :: values => do
    let first ← update part outlet value
    let rest ← showItems update part (item + 1) first.lastNode outlets values
    pure (first :: rest)
  | [], value :: values => do
    let first ← update part (.vacant (← makeAnchor part item last)) value
    let rest ← showItems update part (item + 1) first.lastNode [] values
    pure (first :: rest)
  | [], [] => pure []
  | outlet :: outlets, [] => do
    Stage.note (.itemsDropped (outlets.length + 1))
    dropAll (outlet :: outlets)
    pure []

/-- Shows a list, in the outlets that are there if a list was shown before. -/
def showList (update : OutletUpdate σ) (part : Nat) (outlet : Outlet σ) (values : List Value) :
    RenderM σ (Outlet σ) := do
  match outlet with
  | .items anchor outlets => .items anchor <$> showItems update part 0 anchor outlets values
  | _ =>
    outlet.clear
    .items outlet.anchor <$> showItems update part 0 outlet.anchor [] values

/-- Gives an outlet of the part with the given index a new value, with the given room left for
templates and lists. -/
def update (setting : Setting σ) : Nat → OutletUpdate σ
  | 0, part, outlet, _ => do
    report part (setting.depthAt 0) (.tooDeep setting.config.depthLimit)
    outlet.vacate
  | room + 1, part, outlet, value => do
    match ← (setting.environment.resolve setting.config.maxInvocations value).run with
    | .error error =>
      report part (setting.depthAt (room + 1)) error
      outlet.vacate
    | .ok (.template template values) =>
      showTemplate setting (update setting room) part (setting.depthAt room) outlet template values
    | .ok (.items values) => showList (update setting room) part outlet values
    | .ok value => outlet.showText (value.primitiveText.getD "")

end Outlet

end LiveMarkup
