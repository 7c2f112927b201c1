import LiveMarkup.Proofs.Holding

/-! # Following a call

A call gives the parts of a template their values one after another.  It can be followed from part to
part: the call as far as the first parts (`Renderer.renderUpTo`) is one that has no values for the
others, and the whole call goes on from there (`Renderer.render_eq_of_renderUpTo`). -/

namespace LiveMarkup

variable {σ : Type}

/-- An update goes on behind the first values as it has begun. -/
theorem updateBindings_take (setting : Setting σ) (update : OutletUpdate σ) (depth index : Nat)
    (bindings : List (Binding σ)) (parts : List Part) (values : List Value) (count : Nat) :
    updateBindings setting update depth index bindings parts values = (do
      let begun ← updateBindings setting update depth index bindings parts (values.take count)
      let rest ← updateBindings setting update depth (index + count) (begun.drop count)
        (parts.drop count) (values.drop count)
      pure (begun.take count ++ rest)) := by
  have nothing (index : Nat) (bindings : List (Binding σ)) (parts : List Part) :
      updateBindings setting update depth index bindings parts [] = pure bindings := by
    cases bindings <;> cases parts <;> rfl
  induction count generalizing index bindings parts values with
  | zero => simp [nothing]
  | succ count ih =>
    cases bindings with
    | nil => simp [updateBindings]
    | cons binding bindings =>
      cases parts with
      | nil => simp [updateBindings]
      | cons entry parts =>
        cases values with
        | nil => simp [updateBindings]
        | cons value values =>
          have later : index + (count + 1) = index + 1 + count := by omega
          rw [updateBindings, List.take_succ_cons, updateBindings, ih (index + 1)]
          cases binding <;> simp [later]

/-- What an update of an instance does is to update its bindings. -/
theorem Instance.run_update (setting : Setting σ) (update : OutletUpdate σ) (inner : Instance σ)
    (values : List Value) (failures : Array Diagnostic) (state : σ) (stage : Stage) :
    (((some <$> inner.update setting update 0 values).run failures).run state).run stage =
      let outcome := (((updateBindings setting update 0 0 inner.bindings
        inner.template.blueprint.parts values).run failures).run state).run stage
      (((some (.mk inner.template inner.roots outcome.1.1.1), outcome.1.1.2), outcome.1.2),
        outcome.2) :=
  rfl

namespace Renderer

/-- A call as far as the first parts: those behind are not given their values. -/
def renderUpTo (renderer : Renderer σ) (environment : Environment σ) (container : NodeId)
    (result : TemplateResult) (world : σ) (count : Nat) : RenderReport × Renderer σ × σ :=
  renderer.render environment container ⟨result.template, result.values.take count⟩ world

/-- Whatever the values are, a call prepares the same and then updates what there is. -/
theorem exists_finish (renderer : Renderer σ) (environment : Environment σ) (container : NodeId)
    (template : Template) (world : σ) :
    let setting : Setting σ := ⟨environment, renderer.config, renderer.strategies⟩
    ∃ (made : Option (Instance σ)) (failures : Array Diagnostic) (state : σ) (stage : Stage),
      ∀ values : List Value, renderer.render environment container ⟨template, values⟩ world =
        let outcome := (((match made with
          | some inner => some <$> inner.update setting
            (Outlet.update setting (renderer.config.depthLimit + 1)) 0 values
          | none => pure none : RenderM σ (Option (Instance σ))).run failures).run state).run stage
        (⟨outcome.1.1.2.toList⟩, { renderer with
          stage := outcome.2
          instances := (outcome.1.1.1.map (container, ·)).toList ++
            without renderer.instances container }, outcome.1.2) := by
  intro setting
  let prepared := (((prepare setting container (renderer.instance? container) template).run
    #[]).run world).run { renderer.stage with journal := renderer.stage.journal.push .rendering }
  exact ⟨prepared.1.1.1, prepared.1.1.2, prepared.1.2, prepared.2, fun values => rfl⟩

/-- A call goes on behind its first parts from where it has come to. -/
theorem render_eq_of_renderUpTo (renderer : Renderer σ) (environment : Environment σ)
    (container : NodeId) (result : TemplateResult) (world : σ) (count : Nat) {inner : Instance σ}
    (held : (renderer.renderUpTo environment container result world count).2.1.instance? container =
      some inner) :
    let begun := renderer.renderUpTo environment container result world count
    let setting : Setting σ := ⟨environment, renderer.config, renderer.strategies⟩
    let outcome := (updateBindings setting (Outlet.update setting (renderer.config.depthLimit + 1)) 0
      count (inner.bindings.drop count) (inner.template.blueprint.parts.drop count)
      (result.values.drop count)).run begun.1.diagnostics.toArray |>.run begun.2.2
        |>.run begun.2.1.stage
    let updated : Instance σ :=
      .mk inner.template inner.roots (inner.bindings.take count ++ outcome.1.1.1)
    renderer.render environment container result world =
      (⟨outcome.1.1.2.toList⟩, { begun.2.1 with
        stage := outcome.2
        instances := (container, updated) :: without begun.2.1.instances container },
        outcome.1.2) := by
  intro begun setting outcome updated
  obtain ⟨made, failures, state, stage, renders⟩ :=
    renderer.exists_finish environment container result.template world
  have start : begun = _ := renders (result.values.take count)
  have held : instance? begun.2.1 container = some inner := held
  -- Without an instance the shorter call leaves the container empty, against `held`.
  cases made with
  | none =>
    have nothing := lookup_updated (none : Option (Instance σ)) renderer.instances container container
    rw [if_pos rfl] at nothing
    rw [start] at held
    exact absurd (nothing.symm.trans held) nofun
  | some old =>
    dsimp only at start renders
    rw [Instance.run_update] at start
    have others : without begun.2.1.instances container = without renderer.instances container := by
      rw [start]
      simp [without]
    rw [start, instance?] at held
    have same : inner = _ := Option.some.inj (held.symm.trans List.lookup_cons_self)
    -- Both calls go through the first `count` bindings alike; the longer one then goes on.
    rw [show result = ⟨result.template, result.values⟩ from rfl, renders, Instance.run_update,
      updateBindings_take setting _ 0 0 _ _ _ count, Nat.zero_add, others]
    dsimp only [updated, outcome]
    rw [same, start]
    rfl

end Renderer

end LiveMarkup
