import LiveMarkup.Proofs.Stencil
import LiveMarkup.Render.Update

/-! # Reading a result

What a result looks like, without a document: the forest that it stands for, by recursion on its
values.  Deferred values are invoked in passing, so a reading goes from one state of the environment
to another, and takes down a diagnostic for each part that it cannot read.

The recursion goes into templates and lists as long as the depth limit allows. -/

namespace LiveMarkup

open Markup

/-- Reading within an environment of state `σ`. -/
abbrev ReadM (σ : Type) :=
  StateT (Array Diagnostic) (StateM σ)

/-- Reading that may fail. -/
abbrev AttemptM (σ : Type) :=
  ExceptT ResolutionError (StateM σ)

namespace Reading

variable {σ : Type}

/-! ## Failures -/

/-- Takes down a diagnostic. -/
def complain (part depth : Nat) (error : ResolutionError) : ReadM σ Unit :=
  modifyThe (Array Diagnostic) (·.push { part, depth, error })

/-- What an attempt gives, or else the given value and a diagnostic. -/
def orElse {α : Type} (part depth : Nat) (instead : α) (attempt : AttemptM σ α) : ReadM σ α := do
  match ← attempt.run with
  | .ok value => pure value
  | .error error =>
    complain part depth error
    pure instead

/-! ## Deferred values -/

section

variable (environment : Environment σ) (config : Config)

/-- What a deferred computation yields. -/
def invoked (computation : Deferred) : AttemptM σ Value := do
  let (reply, world) := environment.invoke computation (← getThe σ)
  set world
  match reply.outcome with
  | .ok value => pure value
  | .error fault => throw (.fault fault)

/-- What a value becomes with at most the given number of invocations. -/
def settled : Nat → Value → AttemptM σ Value
  | 0, .deferred _ => throw (.unresolved config.maxInvocations)
  | left + 1, .deferred computation => do settled left (← invoked environment computation)
  | _, value => pure value

/-- What a value and the items in it become.  Lists may nest as many levels deep as given. -/
def settledDeep (levels : Nat) (value : Value) : AttemptM σ Value := do
  match ← settled environment config config.maxInvocations value with
  | .items values =>
    match levels with
    | 0 => throw (.tooDeep config.depthLimit)
    | levels + 1 => return .items (← values.mapM (settledDeep levels))
  | value => pure value

/-! ## Parts -/

/-- The text of a dynamic attribute.  Around it are as many templates as the depth says. -/
def attributeText (depth : Nat) (value : Value) : AttemptM σ String := do
  let value ← settledDeep environment config (config.depthLimit - depth) value
  value.attributeText

/-- The fillings of parts, the first of which has the given index.  `content` reads the values of
anchors. -/
def fillings (content : Nat → Value → ReadM σ Forest) (depth index : Nat) :
    List Part → List Value → ReadM σ (List Filling)
  | .attribute _ :: parts, value :: values => do
    let text ← orElse index depth "" (attributeText environment config depth value)
    let rest ← fillings content depth (index + 1) parts values
    pure (.text text :: rest)
  | .node _ :: parts, value :: values => do
    let forest ← content index value
    let rest ← fillings content depth (index + 1) parts values
    pure (.nodes forest :: rest)
  | _, _ => pure []

/-- A template with the given values in its parts. -/
def template (content : Nat → Value → ReadM σ Forest) (depth : Nat) (template : Template)
    (values : List Value) : ReadM σ Forest := do
  let fillings ← fillings environment config content depth 0 template.blueprint.parts values
  pure (template.blueprint.weave fillings)

/-- Items, one after another. -/
def items (content : Value → ReadM σ Forest) : List Value → ReadM σ Forest
  | [] => pure []
  | value :: rest => do
    let first ← content value
    let more ← items content rest
    pure (first ++ more)

/-- The value of an anchor: the anchor itself, which shows a text, and what comes behind it. -/
def content (depth part : Nat) (value : Value) : ReadM σ Forest := do
  if depth ≤ config.depthLimit then
    match ← (settled environment config config.maxInvocations value).run with
    | .ok (.template inner values) =>
      let inside ← template environment config (content (depth + 1)) (depth + 1) inner values
      pure (.text "" :: inside)
    | .ok (.items values) =>
      let inside ← items (content (depth + 1) part) values
      pure (.text "" :: inside)
    | .ok value => pure [.text (value.primitiveText.getD "")]
    | .error error =>
      complain part depth error
      pure [.text ""]
  else
    complain part depth (.tooDeep config.depthLimit)
    pure [.text ""]
  termination_by config.depthLimit + 1 - depth

/-- A result. -/
def result (result : TemplateResult) : ReadM σ Forest :=
  template environment config (content environment config 0) 0 result.template result.values

end

end Reading

end LiveMarkup
