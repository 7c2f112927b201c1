import LiveMarkup.Proofs.Attributes
import LiveMarkup.Proofs.Parts
import LiveMarkup.Proofs.Planting.Sowing

/-! # Beds with new values

An update resolves its values and, in doing so, changes the document.  The two can be told apart:
what the values settle to is a matter of the environment alone, and what a bed becomes with settled
values is a matter of `Bed.tend`.

`Tends` says of an update of single outlets that it comes to the tending of plots, and
`simulates_bed` carries that over to all parts of an instance. -/

namespace LiveMarkup

open Document Markup

variable {σ τ : Type}

/-! ## Settled values -/

namespace Settling

open Reading

section

variable (environment : Environment τ) (config : Config)

/-- What the value of a dynamic attribute settles to. -/
def attributeValue (part depth : Nat) (value : Value) : ReadM τ Value := do
  match ← (settledDeep environment config (config.depthLimit - depth) value).run with
  | .error error =>
    complain part depth error
    pure .empty
  | .ok value =>
    match value.attributeText with
    | .error error =>
      complain part depth error
      pure value
    | .ok _ => pure value

/-- What the values of parts settle to, the first of which has the given index.  `content` settles
the values of anchors. -/
def parts (content : Nat → Value → ReadM τ Value) (depth index : Nat) :
    List Part → List Value → ReadM τ (List Value)
  | part :: rest, value :: values => do
    let first ←
      match part with
      | .attribute _ => attributeValue environment config index depth value
      | .node _ => content index value
    let others ← parts content depth (index + 1) rest values
    pure (first :: others)
  | _, _ => pure []

/-- What items settle to. -/
def items (content : Value → ReadM τ Value) : List Value → ReadM τ (List Value)
  | [] => pure []
  | value :: rest => do
    let first ← content value
    let others ← items content rest
    pure (first :: others)

/-- What the value of an anchor settles to, with the given room left for templates and lists. -/
def content : Nat → Nat → Value → ReadM τ Value
  | 0, part, _ => do
    complain part (config.depthLimit + 1) (.tooDeep config.depthLimit)
    pure .empty
  | room + 1, part, value => do
    match ← (settled environment config config.maxInvocations value).run with
    | .error error =>
      complain part (config.depthLimit + 1 - (room + 1)) error
      pure .empty
    | .ok (.template template values) =>
      .template template <$>
        parts environment config (content room) (config.depthLimit + 1 - room) 0
          template.blueprint.parts values
    | .ok (.items values) => .items <$> items (content room part) values
    | .ok value => pure value

end

theorem parts_append (environment : Environment τ) (config : Config)
    (content : Nat → Value → ReadM τ Value) (depth index : Nat) (first more : List Part)
    (values : List Value) :
    parts environment config content depth index (first ++ more) values =
      (do
        let here ← parts environment config content depth index first (values.take first.length)
        let there ← parts environment config content depth (index + first.length) more
          (values.drop first.length)
        pure (here ++ there)) := by
  induction first generalizing values index with
  | nil => simp [parts]
  | cons part first ih =>
    obtain _ | ⟨value, values⟩ := values
    · cases more <;> simp [parts]
    · have shift : index + (first.length + 1) = index + 1 + first.length := by omega
      cases part <;> simp only [List.cons_append, parts, ih, bind_assoc, pure_bind,
        List.length_cons, List.take_succ_cons, List.drop_succ_cons, shift]

end Settling

theorem updateBindings_nil {setting : Setting σ} (update : OutletUpdate σ) (depth index : Nat)
    (bindings : List (Binding σ)) (parts : List Part) :
    updateBindings setting update depth index bindings parts [] = pure bindings := by
  cases bindings <;> cases parts <;> rfl

/-- Bindings are updated as long as there are values. -/
theorem updateBindings_split {setting : Setting σ} (update : OutletUpdate σ) (depth index : Nat)
    {first second : List (Binding σ)} {parts more : List Part} (values : List Value)
    (bindings : first.length = parts.length) :
    updateBindings setting update depth index (first ++ second) (parts ++ more) values =
      (do
        let here ←
          updateBindings setting update depth index first parts (values.take parts.length)
        let there ← updateBindings setting update depth (index + parts.length) second more
          (values.drop parts.length)
        pure (here ++ there)) := by
  induction parts generalizing first values index with
  | nil =>
    rw [List.length_nil, List.length_eq_zero_iff] at bindings
    subst bindings
    simp [updateBindings]
  | cons part parts ih =>
    obtain _ | ⟨binding, first⟩ := first
    · cases bindings
    obtain _ | ⟨value, values⟩ := values
    · simp [updateBindings_nil]
    · have later := @ih (index + 1) first values (Nat.succ.inj bindings)
      have shift : index + (parts.length + 1) = index + 1 + parts.length := by omega
      cases binding <;> simp only [List.cons_append, updateBindings, bind_assoc, pure_bind, later,
        List.length_cons, List.take_succ_cons, List.drop_succ_cons, shift]

end LiveMarkup
