import LiveMarkup.Proofs.Planting.Seclusion
import LiveMarkup.Proofs.Planting.States

/-! # The values of a result, one by one

What the values of a result settle to, is found part by part: the next one settles in the state in
which those before it have left the environment.

If two results only differ in the value of one part, and its computations leave alone what the
others go by, then all other values settle to the same, with the same failures and the same
invocations (`Renderer.exists_settled`). -/

namespace LiveMarkup

open Document Markup Settling

variable {σ υ : Type}

/-! ## Traced environments -/

namespace Environment

variable {environment : Environment σ} {kind : Deferred → Prop} {view : σ → υ}

/-- Computations that go by a view invoke the same from states that look the same. -/
theorem GoesBy.traced (goes : environment.GoesBy kind view) (calls calls' : List Deferred) :
    environment.traced.Respects kind fun state state' => view state.1 = view state'.1 ∧
      ∃ more, state.2 = calls ++ more ∧ state'.2 = calls' ++ more where
  closed computation holds state := goes.closed computation holds state.1
  outcome computation holds _ _ agree := goes.outcome computation holds _ _ agree.1
  next := by
    rintro computation holds state state' ⟨agree, more, same, same'⟩
    refine ⟨goes.next computation holds _ _ agree, more ++ [computation], ?_, ?_⟩
    · rw [← List.append_assoc, ← same]
      rfl
    · rw [← List.append_assoc, ← same']
      rfl

end Environment

/-! ## Settling part by part -/

/-- Two lists of values only differ at one index.  The computations of the others are of one kind,
and those at the index of another one. -/
structure DifferAt (others own : Deferred → Prop) (index : Nat) (values values' : List Value) :
    Prop where
  same : ∀ other, other ≠ index → values'[other]? = values[other]?
  outside : ∀ other value, other ≠ index → values[other]? = some value → value.Invokes others
  inside : ∀ value, values[index]? = some value → value.Invokes own
  inside' : ∀ value, values'[index]? = some value → value.Invokes own

/-- In a reading of values one more of them settles, which takes down failures and invokes
computations. -/
structure Settles (before after : (List Value × Array Diagnostic) × σ × List Deferred)
    (settled : Value) (failures : Array Diagnostic) (calls : List Deferred) : Prop where
  values : after.1.1 = before.1.1 ++ [settled]
  failures : after.1.2 = before.1.2 ++ failures
  calls : after.2.2 = before.2.2 ++ calls

namespace Renderer

/-- What the values of a result settle to, with the failures and the state of the environment. -/
abbrev settling (environment : Environment σ) (config : Config) (template : Template)
    (values : List Value) (state : σ) : (List Value × Array Diagnostic) × σ :=
  ((settle environment config template values).run #[]).run state

/-- Settles the value of one part of a rendered template. -/
abbrev settlePart (environment : Environment σ) (config : Config) (index : Nat) (entry : Part)
    (value : Value) : ReadM σ Value :=
  part environment config (content environment config (config.depthLimit + 1)) 0 index entry value

section

variable (environment : Environment σ) (config : Config) {template : Template}
  {values : List Value} {count : Nat}

/-- One more of the values settles after those before it. -/
theorem settling_take_succ {entry : Part} (there : template.blueprint.parts[count]? = some entry)
    {value : Value} (given : values[count]? = some value) (state : σ) :
    settling environment config template (values.take (count + 1)) state =
      let before := settling environment config template (values.take count) state
      let last := ((settlePart environment config count entry value).run before.1.2).run before.2
      ((before.1.1 ++ [last.1.1], last.1.2), last.2) := by
  unfold settling settle
  rw [parts_take_succ 0 0 there given, Nat.zero_add]
  rfl

theorem length_settling (state : σ) (within : count ≤ template.blueprint.parts.length)
    (enough : count ≤ values.length) :
    (settling environment config template (values.take count) state).1.1.length = count := by
  induction count with
  | zero =>
    rw [List.take_zero, settling, settle, parts_nil]
    rfl
  | succ count ih =>
    rw [settling_take_succ _ _ (List.getElem?_eq_getElem within) (List.getElem?_eq_getElem enough)]
    simpa using ih (Nat.le_of_succ_le within) (Nat.le_of_succ_le enough)

/-- What the first values settle to does not depend on those behind. -/
theorem take_settling_add (state : σ) {more : Nat}
    (within : count + more ≤ template.blueprint.parts.length)
    (enough : count + more ≤ values.length) :
    (settling environment config template (values.take (count + more)) state).1.1.take count =
      (settling environment config template (values.take count) state).1.1 := by
  induction more with
  | zero =>
    refine List.take_of_length_le (Nat.le_of_eq ?_)
    exact length_settling environment config state within enough
  | succ more ih =>
    have fewer : count + more ≤ template.blueprint.parts.length := Nat.le_of_succ_le within
    have fewer' : count + more ≤ values.length := Nat.le_of_succ_le enough
    have inside : count + more < template.blueprint.parts.length := within
    have given : count + more < values.length := enough
    rw [← Nat.add_assoc, settling_take_succ _ _ (List.getElem?_eq_getElem inside)
      (List.getElem?_eq_getElem given), ← ih fewer fewer']
    refine List.take_append_of_le_length ?_
    rw [length_settling environment config state fewer fewer']
    exact Nat.le_add_right count more

theorem length_settling_of_enough (state : σ)
    (enough : values.length = template.blueprint.parts.length) :
    (settling environment config template values state).1.1.length =
      template.blueprint.parts.length := by
  have length := length_settling environment config state (Nat.le_refl _) (Nat.le_of_eq enough.symm)
  rwa [List.take_of_length_le (Nat.le_of_eq enough)] at length

theorem take_settling (state : σ) (enough : values.length = template.blueprint.parts.length)
    (within : count ≤ template.blueprint.parts.length) :
    (settling environment config template values state).1.1.take count =
      (settling environment config template (values.take count) state).1.1 := by
  obtain ⟨more, all⟩ := Nat.exists_eq_add_of_le within
  have taken := take_settling_add environment config state (Nat.le_of_eq all.symm)
    (Nat.le_of_eq (all.symm.trans enough.symm))
  rwa [List.take_of_length_le (Nat.le_of_eq (enough.trans all))] at taken

end

section

variable {environment : Environment σ} (config : Config) {template : Template}
  {values values' : List Value} {count : Nat} {entry : Part} {value : Value} {kind : Deferred → Prop}
  {view : σ → υ} (state : σ × List Deferred)

/-- A value whose computations go by a view settles to the same from states that look the same. -/
theorem settling_of_goesBy (goes : environment.GoesBy kind view)
    (there : template.blueprint.parts[count]? = some entry) (given : values[count]? = some value)
    (given' : values'[count]? = some value) (invokes : value.Invokes kind) :
    let read (values : List Value) := settling environment.traced config template values state
    view (read (values.take count)).2.1 = view (read (values'.take count)).2.1 →
    view (read (values.take (count + 1))).2.1 = view (read (values'.take (count + 1))).2.1 ∧
      ∃ settled failures calls,
        Settles (read (values.take count)) (read (values.take (count + 1))) settled failures calls ∧
          Settles (read (values'.take count)) (read (values'.take (count + 1))) settled failures
            calls := by
  intro read agree
  have respects := goes.traced (read (values.take count)).2.2 (read (values'.take count)).2.2
  obtain ⟨settled, failures, after, after', ran, ran', ⟨same, calls, added, added'⟩⟩ :=
    steady_part respects (steady_content respects (config.depthLimit + 1)) 0 count entry invokes
      (read (values.take count)).2 (read (values'.take count)).2 (read (values.take count)).1.2
      (read (values'.take count)).1.2 ⟨agree, [], (List.append_nil _).symm, (List.append_nil _).symm⟩
  have next : read (values.take (count + 1)) = _ := settling_take_succ _ _ there given state
  have next' : read (values'.take (count + 1)) = _ := settling_take_succ _ _ there given' state
  dsimp only [settlePart] at next next'
  rw [ran] at next
  rw [ran'] at next'
  rw [next, next']
  exact ⟨same, settled, failures, calls, ⟨rfl, rfl, added⟩, ⟨rfl, rfl, added'⟩⟩

/-- A value whose computations leave a view alone does not change what there is to be seen. -/
theorem settling_of_leavesAlone (leaves : environment.LeavesAlone kind view)
    (there : template.blueprint.parts[count]? = some entry) (given : values[count]? = some value)
    (invokes : value.Invokes kind) :
    let read (values : List Value) := settling environment.traced config template values state
    view (read (values.take (count + 1))).2.1 = view (read (values.take count)).2.1 := by
  intro read
  have respects := leaves.traced.respects (view (read (values.take count)).2.1)
  obtain ⟨settled, failures, after, after', ran, -, ⟨-, same⟩⟩ :=
    steady_part respects (steady_content respects (config.depthLimit + 1)) 0 count entry invokes
      (read (values.take count)).2 (read (values.take count)).2 (read (values.take count)).1.2
      (read (values.take count)).1.2 ⟨rfl, rfl⟩
  have next : read (values.take (count + 1)) = _ := settling_take_succ _ _ there given state
  dsimp only [settlePart] at next
  rw [ran] at next
  rw [next]
  exact same

end

section

variable {environment : Environment σ} (config : Config) {template : Template}
  {others own : Deferred → Prop} {view : σ → υ} {index : Nat} {values values' : List Value}
  (state : σ × List Deferred)

/-- Wherever two readings have come, they see the same. -/
theorem view_settling_eq (goes : environment.GoesBy others view)
    (leaves : environment.LeavesAlone own view) (differ : DifferAt others own index values values')
    (enough : values.length = template.blueprint.parts.length)
    (enough' : values'.length = template.blueprint.parts.length) {count : Nat}
    (within : count ≤ template.blueprint.parts.length) :
    view (settling environment.traced config template (values.take count) state).2.1 =
      view (settling environment.traced config template (values'.take count) state).2.1 := by
  induction count with
  | zero => rfl
  | succ count ih =>
    have agree := ih (Nat.le_of_succ_le within)
    have there := List.getElem?_eq_getElem (Nat.lt_of_succ_le within)
    have given := List.getElem?_eq_getElem (Nat.lt_of_lt_of_eq within enough.symm)
    have given' := List.getElem?_eq_getElem (Nat.lt_of_lt_of_eq within enough'.symm)
    by_cases here : count = index
    · have seen := settling_of_leavesAlone config state leaves there given
        (differ.inside _ (here ▸ given))
      have seen' := settling_of_leavesAlone config state leaves there given'
        (differ.inside' _ (here ▸ given'))
      exact seen.trans (agree.trans seen'.symm)
    · exact (settling_of_goesBy config state goes there given ((differ.same count here).trans given)
        (differ.outside count _ here given) agree).1

/-- What one value settles to is found among what all of them settle to. -/
theorem getElem?_settling_of_settles (enough : values.length = template.blueprint.parts.length)
    {other : Nat} (within : other < template.blueprint.parts.length) {settled : Value}
    {failures : Array Diagnostic} {calls : List Deferred}
    (settles : Settles (settling environment.traced config template (values.take other) state)
      (settling environment.traced config template (values.take (other + 1)) state) settled failures
      calls) :
    (settling environment.traced config template values state).1.1[other]? = some settled := by
  have length := length_settling environment.traced config state
    (Nat.le_of_lt within) (Nat.le_of_lt (Nat.lt_of_lt_of_eq within enough.symm))
  rw [← List.getElem?_take_of_lt (Nat.lt_succ_self other),
    take_settling environment.traced config state enough within, settles.values,
    List.getElem?_append_right (Nat.le_of_eq length), length]
  simp

/-- The readings of two results that only differ in the value of one part come to the same for all
others. -/
theorem exists_settled (goes : environment.GoesBy others view)
    (leaves : environment.LeavesAlone own view) (differ : DifferAt others own index values values')
    (enough : values.length = template.blueprint.parts.length)
    (enough' : values'.length = template.blueprint.parts.length) :
    let read (values : List Value) := settling environment.traced config template values state
    (∀ other, other ≠ index → (read values').1.1[other]? = (read values).1.1[other]?) ∧
      ∀ other < template.blueprint.parts.length, other ≠ index → ∃ settled failures calls,
        Settles (read (values.take other)) (read (values.take (other + 1))) settled failures calls ∧
          Settles (read (values'.take other)) (read (values'.take (other + 1))) settled failures
            calls := by
  intro read
  have each (other : Nat) (within : other < template.blueprint.parts.length)
      (apart : other ≠ index) : ∃ settled failures calls,
        Settles (read (values.take other)) (read (values.take (other + 1))) settled failures calls ∧
          Settles (read (values'.take other)) (read (values'.take (other + 1))) settled failures
            calls := by
    have there := List.getElem?_eq_getElem within
    have given := List.getElem?_eq_getElem (Nat.lt_of_lt_of_eq within enough.symm)
    exact (settling_of_goesBy config state goes there given ((differ.same other apart).trans given)
      (differ.outside other _ apart given)
      (view_settling_eq config state goes leaves differ enough enough' (Nat.le_of_lt within))).2
  refine ⟨fun other apart => ?_, each⟩
  by_cases within : other < template.blueprint.parts.length
  · obtain ⟨settled, _, _, settles, settles'⟩ := each other within apart
    exact (getElem?_settling_of_settles config state enough' within settles').trans
      (getElem?_settling_of_settles config state enough within settles).symm
  · have beyond := Nat.le_of_not_lt within
    rw [List.getElem?_eq_none, List.getElem?_eq_none]
    · exact (length_settling_of_enough _ config state enough).trans_le beyond
    · exact (length_settling_of_enough _ config state enough').trans_le beyond

end

end Renderer

end LiveMarkup
