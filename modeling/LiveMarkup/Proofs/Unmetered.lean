import LiveMarkup.Render.Renderer
import Mathlib.Data.Option.Basic

/-! # Rendering without a meter

The functions that render recur on what is left: on the levels that may still come, on the
invocations that may still be made, and on the number of children that may still have to be removed.
So they are total, whether or not the limits are ever checked.

Here is rendering without any of these meters.  The depth is counted up from the rendered template
and compared with the limit, invocations are counted up from the first one, and a container is swept
for as long as it has a first child that goes away.  Whether such a program returns is a question:
it is one in a monad whose recursive programs may fail to. -/

namespace LiveMarkup

variable {σ α : Type}

/-- What a program without a meter does that has to be bounded. -/
inductive Call where
  /-- A part of an instance, or an item of one, is brought up to date at a depth. -/
  | update (depth : Nat)
  /-- A chain of deferred values has come to an end after some invocations. -/
  | chain (invocations : Nat)
  /-- Resolving the value of an attribute part at a depth has come to a value that has some levels
  of lists around it. -/
  | descent (depth level : Nat)

structure Running (σ : Type) where
  stage : Stage
  world : σ
  diagnostics : Array Diagnostic
  calls : List Call

namespace Running

/-- The result of an action, and what is left then. -/
def perform (running : Running σ) (action : RenderM σ α) : α × Running σ :=
  let (((result, diagnostics), world), stage) :=
    action.run running.diagnostics |>.run running.world |>.run running.stage
  (result, { running with stage, world, diagnostics })

def record (running : Running σ) (calls : List Call) : Running σ :=
  { running with calls := running.calls ++ calls }

end Running

/-- Work without a meter, which may never return. -/
abbrev UnmeteredM (σ : Type) :=
  StateT (Running σ) Option

namespace Unmetered

/-- Work that returns anyhow. -/
def work (action : RenderM σ α) : UnmeteredM σ α :=
  fun running => some (running.perform action)

def record (call : Call) : UnmeteredM σ Unit :=
  modify (·.record [call])

/-! ## Resolving -/

/-- Invokes a deferred value, and what comes of it, as long as it is deferred, after a number of
invocations. -/
def trampoline (setting : Setting σ) (invocations : Nat) :
    Value → UnmeteredM σ (Except ResolutionError Value)
  | .deferred computation => do
    if invocations = setting.config.maxInvocations then
      record (.chain invocations)
      pure (.error (.unresolved setting.config.maxInvocations))
    else
      match ← work (liftM (setting.environment.call computation).run) with
      | .ok value => by apply trampoline; exacts [setting, invocations + 1, value]
      | .error error =>
        record (.chain (invocations + 1))
        pure (.error error)
  | value => do
    record (.chain invocations)
    pure (.ok value)
partial_fixpoint

/-- Resolves a value with some levels of lists around it, and all items in it.  The depth is that of
the part. -/
def resolveNested (setting : Setting σ) (depth level : Nat) (value : Value) :
    ExceptT ResolutionError (UnmeteredM σ) Value := do
  let levels := setting.config.depthLimit - depth
  ExceptT.lift (record (.descent depth level))
  match ← ExceptT.mk (trampoline setting 0 value) with
  | .items values =>
    if levels ≤ level then throw (.tooDeep levels)
    else return .items (← values.mapM (by apply resolveNested; exacts [setting, depth, level + 1]))
  | value => pure value
partial_fixpoint

/-! ## Updating -/

/-- Gives an attribute part a new value. -/
def updateAttribute (setting : Setting σ) (binding : AttributeBinding σ) (part depth : Nat)
    (value : Value) : UnmeteredM σ (AttributeBinding σ) := do
  record (.update depth)
  let value ←
    match ← (resolveNested setting depth 0 value).run with
    | .ok value => pure value
    | .error error =>
      work (report part depth (setting.relabel error))
      pure .empty
  if binding.last.any (·.samePrimitive value) then
    work (liftM (Stage.note .attributeSame))
    pure binding
  else work (binding.commit part depth value)

mutual

/-- Gives bindings new values, in order. -/
def updateBindings (setting : Setting σ) (depth index : Nat) :
    List (Binding σ) → List Part → List Value → UnmeteredM σ (List (Binding σ))
  | binding :: bindings, part :: parts, value :: values => do
    work (liftM (Stage.note (.updating index depth part.path)))
    let first ←
      match binding with
      | .attribute binding => do
        let binding ← updateAttribute setting binding index depth value
        pure (Binding.attribute binding)
      | .outlet outlet => do
        let outlet ← by apply updateOutlet; exacts [setting, depth, index, outlet, value]
        pure (Binding.outlet outlet)
    let rest ← by
      apply updateBindings; exacts [setting, depth, index + 1, bindings, parts, values]
    pure (first :: rest)
  | bindings, _, _ => pure bindings
partial_fixpoint

/-- Shows a template, in the instance that is there if it is of the same template. -/
def showTemplate (setting : Setting σ) (depth part : Nat) (outlet : Outlet σ) (template : Template)
    (values : List Value) : UnmeteredM σ (Outlet σ) := do
  match outlet with
  | .nested anchor inner =>
    if inner.template = template then
      work (liftM (Stage.note .instanceReused))
      let bindings ← by
        apply updateBindings
        exacts [setting, depth, 0, inner.bindings, inner.template.blueprint.parts, values]
      pure (.nested anchor (.mk inner.template inner.roots bindings))
    else by apply replaceTemplate; exacts [setting, depth, part, outlet, template, values]
  | _ => by apply replaceTemplate; exacts [setting, depth, part, outlet, template, values]
partial_fixpoint

/-- Shows a template in a new instance. -/
def replaceTemplate (setting : Setting σ) (depth part : Nat) (outlet : Outlet σ)
    (template : Template) (values : List Value) : UnmeteredM σ (Outlet σ) := do
  work (liftM outlet.clear)
  match ← work (liftM (Instance.make setting.strategies template)) with
  | .error (missing, error) =>
    work (liftM (Stage.note (.nestedMissing part)))
    work (report missing depth error)
    pure (.vacant outlet.anchor)
  | .ok inner =>
    work (liftM (Outlet.place part outlet.anchor inner))
    let bindings ← by
      apply updateBindings
      exacts [setting, depth, 0, inner.bindings, inner.template.blueprint.parts, values]
    pure (.nested outlet.anchor (.mk inner.template inner.roots bindings))
partial_fixpoint

/-- Gives the outlets of a list its items, which start with the item of the given index, behind the
node `last`. -/
def showItems (setting : Setting σ) (depth part item : Nat) (last : NodeId) :
    List (Outlet σ) → List Value → UnmeteredM σ (List (Outlet σ))
  | outlet :: outlets, value :: values => do
    let first ← by apply updateOutlet; exacts [setting, depth, part, outlet, value]
    let rest ← by
      apply showItems; exacts [setting, depth, part, item + 1, first.lastNode, outlets, values]
    pure (first :: rest)
  | [], value :: values => do
    let anchor ← work (liftM (Outlet.makeAnchor part item last))
    let first ← by apply updateOutlet; exacts [setting, depth, part, .vacant anchor, value]
    let rest ← by
      apply showItems; exacts [setting, depth, part, item + 1, first.lastNode, [], values]
    pure (first :: rest)
  | [], [] => pure []
  | outlet :: outlets, [] => do
    work (liftM (Stage.note (.itemsDropped (outlets.length + 1))))
    work (liftM (Outlet.dropAll (outlet :: outlets)))
    pure []
partial_fixpoint

/-- Gives an outlet a new value. -/
def updateOutlet (setting : Setting σ) (depth part : Nat) (outlet : Outlet σ) (value : Value) :
    UnmeteredM σ (Outlet σ) := do
  record (.update depth)
  if setting.config.depthLimit < depth then
    work (do
      report part depth (.tooDeep setting.config.depthLimit)
      liftM outlet.vacate)
  else
    match ← trampoline setting 0 value with
    | .error error =>
      work (do
        report part depth error
        liftM outlet.vacate)
    | .ok (.template template values) =>
      by apply showTemplate; exacts [setting, depth + 1, part, outlet, template, values]
    | .ok (.items values) =>
      match outlet with
      | .items anchor outlets =>
        let outlets ← by
          apply showItems; exacts [setting, depth + 1, part, 0, anchor, outlets, values]
        pure (.items anchor outlets)
      | _ =>
        work (liftM outlet.clear)
        let outlets ← by
          apply showItems; exacts [setting, depth + 1, part, 0, outlet.anchor, [], values]
        pure (.items outlet.anchor outlets)
    | .ok value => work (liftM (outlet.showText (value.primitiveText.getD "")))
partial_fixpoint

end

/-! ## Rendering -/

/-- Removes the children of a container until there is none, or one that stays. -/
def sweep (container : NodeId) : UnmeteredM σ Unit := do
  let stage ← work (liftM (get : StageM Stage))
  match stage.firstChild container with
  | none => pure ()
  | some child =>
    work (liftM (Stage.remove child))
    let stage ← work (liftM (get : StageM Stage))
    if stage.firstChild container = some child then work (liftM (Stage.note (.notRemoved child)))
    else by apply sweep; exact container
partial_fixpoint

/-- The instance to be updated in a container. -/
def prepare (setting : Setting σ) (container : NodeId) (previous : Option (Instance σ))
    (template : Template) : UnmeteredM σ (Option (Instance σ)) := do
  match previous.filter (·.template = template) with
  | some inner =>
    work (liftM (Stage.note .instanceUpdated))
    pure (some inner)
  | none =>
    match previous with
    | some previous =>
      work (liftM (Stage.note .instanceReplaced))
      work (liftM previous.detach)
    | none => pure ()
    sweep container
    match ← work (liftM (Instance.make setting.strategies template)) with
    | .ok inner =>
      work (inner.roots.forM fun root => liftM (Stage.append container root))
      pure (some inner)
    | .error (part, error) =>
      work (liftM (Stage.note .instanceMissing))
      work (report part 0 error)
      pure none

def renderInto (setting : Setting σ) (container : NodeId) (previous : Option (Instance σ))
    (result : TemplateResult) : UnmeteredM σ (Option (Instance σ)) := do
  work (liftM (Stage.note .rendering))
  match ← prepare setting container previous result.template with
  | some inner =>
    let bindings ←
      updateBindings setting 0 0 inner.bindings inner.template.blueprint.parts result.values
    pure (some (.mk inner.template inner.roots bindings))
  | none => pure none

/-- Renders a result into a container, if that ever comes to an end.  The outcome is that of
`Renderer.render`, with the calls made. -/
def render (renderer : Renderer σ) (environment : Environment σ) (container : NodeId)
    (result : TemplateResult) (world : σ) :
    Option ((RenderReport × Renderer σ × σ) × List Call) := do
  let setting : Setting σ :=
    { environment, config := renderer.config, strategies := renderer.strategies }
  let start : Running σ := { stage := renderer.stage, world, diagnostics := #[], calls := [] }
  let (inner, running) ←
    (renderInto setting container (renderer.instance? container) result).run start
  let others := Renderer.without renderer.instances container
  let instances := (inner.map (container, ·)).toList ++ others
  pure (({ diagnostics := running.diagnostics.toList },
    { renderer with stage := running.stage, instances }, running.world), running.calls)

end Unmetered

end LiveMarkup
