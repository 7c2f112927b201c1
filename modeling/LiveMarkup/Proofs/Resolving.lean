import LiveMarkup.Proofs.Simulation

/-! # Resolving goes along with reading

Resolving a value invokes the same computations, in the same order, as reading it, and both come to
the same value or failure.  The one difference is in the error about lists that nest too deeply,
which attribute parts relabel. -/

namespace LiveMarkup

variable {α β γ δ : Type} {σ τ : Type}

/-- Both results are values, related as told, or both are errors, the second of which is the first
under another name. -/
inductive Outcomes (name : ResolutionError → ResolutionError) (same : α → β → Prop) :
    Except ResolutionError α → Except ResolutionError β → Prop where
  | ok {result : α} {read : β} (holds : same result read) : Outcomes name same (.ok result) (.ok read)
  | error (error : ResolutionError) : Outcomes name same (.error error) (.error (name error))

/-- Both values are the same proper one. -/
def SameProper (sort : Template → Prop) (value other : Value) : Prop :=
  value = other ∧ value.Proper sort

namespace Follows

variable {related : σ → τ → Prop} {name : ResolutionError → ResolutionError} {same : α → β → Prop}

theorem attempt {action : ResolveM σ γ} {next : γ → ResolveM σ α} {reading : AttemptM τ δ}
    {more : δ → AttemptM τ β} {between : γ → δ → Prop}
    (first : Follows related action.run reading.run (Outcomes name between))
    (second : ∀ result read, between result read →
      Follows related (next result).run (more read).run (Outcomes name same)) :
    Follows related (action >>= next).run (reading >>= more).run (Outcomes name same) := by
  rw [ExceptT.run_bind, ExceptT.run_bind]
  refine first.bind fun result read outcomes => ?_
  cases outcomes with
  | ok holds => exact second _ _ holds
  | error error => exact .pure (.error error)

theorem attempt_pure {result : α} {read : β} (holds : same result read) :
    Follows related (pure result : ResolveM σ α).run (pure read : AttemptM τ β).run
      (Outcomes name same) :=
  Follows.pure (.ok holds)

theorem attempt_throw {error renamed : ResolutionError} (named : name error = renamed) :
    Follows related (throw error : ResolveM σ α).run (throw renamed : AttemptM τ β).run
      (Outcomes name same) :=
  Follows.pure (named ▸ .error error)

end Follows

/-! ## One invocation -/

theorem run_call (environment : Environment σ) (computation : Deferred) (world : σ)
    (stage : Stage) :
    let invoked : Reply × σ := environment.invoke computation world
    ((environment.call computation).run.run world).run stage =
      ((invoked.1.outcome.mapError .fault, invoked.2),
        { stage with journal := stage.journal ++ invoked.1.events }) := by
  -- In this state, the environment may as well be one that always replies this.
  have answered (reply : Reply) (next : σ) :
      ((Environment.call ⟨fun _ _ => (reply, next)⟩ computation).run.run world).run stage =
        ((reply.outcome.mapError .fault, next),
          { stage with journal := stage.journal ++ reply.events }) := by
    obtain ⟨_ | _, _⟩ := reply <;> rfl
  exact answered (environment.invoke computation world).1 (environment.invoke computation world).2

theorem Reading.run_invoked (environment : Environment τ) (computation : Deferred) (world : τ) :
    (Reading.invoked environment computation).run.run world =
      ((environment.invoke computation world).1.outcome.mapError .fault,
        (environment.invoke computation world).2) := by
  have answered (reply : Reply) (next : τ) :
      (Reading.invoked ⟨fun _ _ => (reply, next)⟩ computation).run.run world =
        (reply.outcome.mapError .fault, next) := by
    obtain ⟨_ | _, _⟩ := reply <;> rfl
  exact answered (environment.invoke computation world).1 (environment.invoke computation world).2

section

variable {sort : Template → Prop} {related : σ → τ → Prop} {setting : Setting σ}
  {environment : Environment τ} {name : ResolutionError → ResolutionError}

theorem follows_call (alike : setting.environment.Alike sort related environment)
    (faults : ∀ fault, name (.fault fault) = .fault fault) (computation : Deferred) :
    Follows related (setting.environment.call computation).run
      (Reading.invoked environment computation).run (Outcomes name (SameProper sort)) := by
  intro stage world other agree
  have outcome := alike.outcome computation world other agree
  have proper := alike.proper computation world other agree
  have next := alike.next computation world other agree
  rw [run_call, Reading.run_invoked, ← outcome]
  cases found : (setting.environment.invoke computation world).1.outcome with
  | ok value => exact ⟨next, rfl, rfl, .ok ⟨rfl, proper value found⟩⟩
  | error fault =>
    have outcomes : Outcomes name (SameProper sort) _ _ := .error (.fault fault)
    rw [faults] at outcomes
    exact ⟨next, rfl, rfl, outcomes⟩

/-- Resolving and reading a value come to the same. -/
theorem follows_trampoline (alike : setting.environment.Alike sort related environment)
    (faults : ∀ fault, name (.fault fault) = .fault fault)
    (limits : ∀ limit, name (.unresolved limit) = .unresolved limit) {left : Nat} {value : Value}
    (proper : value.Proper sort) :
    Follows related
      (setting.environment.trampoline setting.config.maxInvocations left value).run
      (Reading.settled environment setting.config left value).run
      (Outcomes name (SameProper sort)) := by
  induction left generalizing value with
  | zero =>
    cases value with
    | deferred computation => exact .attempt_throw (limits _)
    | _ => exact .attempt_pure ⟨rfl, proper⟩
  | succ left ih =>
    cases value with
    | deferred computation =>
      refine (follows_call alike faults computation).attempt ?_
      rintro value _ ⟨rfl, proper⟩
      exact ih proper
    | _ => exact .attempt_pure ⟨rfl, proper⟩

/-- What an update resolves a value to is what is read for it, with errors of the same names. -/
theorem follows_resolve (alike : setting.environment.Alike sort related environment) {value : Value}
    (proper : value.Proper sort) :
    Follows related (setting.environment.resolve setting.config.maxInvocations value).run
      (Reading.settled environment setting.config setting.config.maxInvocations value).run
      (Outcomes id (SameProper sort)) :=
  follows_trampoline alike (fun _ => rfl) (fun _ => rfl) proper

theorem follows_mapM {action : Value → ResolveM σ Value} {reading : Value → AttemptM τ Value}
    {values : List Value}
    (each : ∀ value ∈ values, Follows related (action value).run (reading value).run
      (Outcomes name (SameProper sort))) :
    Follows related (values.mapM action).run (values.mapM reading).run
      (Outcomes name fun results reads => results = reads ∧ ∀ value ∈ reads, value.Proper sort) := by
  induction values with
  | nil =>
    rw [List.mapM_nil, List.mapM_nil]
    exact .attempt_pure ⟨rfl, nofun⟩
  | cons value values ih =>
    rw [List.mapM_cons, List.mapM_cons]
    refine (each value List.mem_cons_self).attempt ?_
    rintro first _ ⟨rfl, proper⟩
    refine (ih fun value member => each value (List.mem_cons_of_mem _ member)).attempt ?_
    rintro rest _ ⟨rfl, more⟩
    exact .attempt_pure ⟨rfl, List.forall_mem_cons.mpr ⟨proper, more⟩⟩

/-- Resolving and reading a value with the items in it come to the same, but for the name of the
error about lists that nest too deeply. -/
theorem follows_resolveLevels (alike : setting.environment.Alike sort related environment)
    (levels : Nat) {left : Nat} {value : Value} (proper : value.Proper sort) :
    Follows related
      (setting.environment.resolveLevels setting.config.maxInvocations levels left value).run
      (Reading.settledDeep environment setting.config left value).run
      (Outcomes setting.relabel (SameProper sort)) := by
  have settles : ∀ {value : Value}, value.Proper sort → Follows related
      (setting.environment.resolve setting.config.maxInvocations value).run
      (Reading.settled environment setting.config setting.config.maxInvocations value).run
      (Outcomes setting.relabel (SameProper sort)) :=
    follows_trampoline alike (fun _ => rfl) fun _ => rfl
  induction left generalizing value with
  | zero =>
    unfold Environment.resolveLevels Reading.settledDeep
    refine (settles proper).attempt ?_
    rintro value _ ⟨rfl, proper⟩
    cases value with
    | items values => exact .attempt_throw rfl
    | _ => exact .attempt_pure ⟨rfl, proper⟩
  | succ left ih =>
    unfold Environment.resolveLevels Reading.settledDeep
    refine (settles proper).attempt ?_
    rintro value _ ⟨rfl, proper⟩
    cases value with
    | items values =>
      have inside : ∀ value ∈ values, value.Proper sort := by
        cases proper with
        | primitive shape => cases shape
        | items inside => exact inside
      refine (follows_mapM fun value member => ih (inside value member)).attempt ?_
      rintro results _ ⟨rfl, proper⟩
      exact .attempt_pure ⟨rfl, .items proper⟩
    | _ => exact .attempt_pure ⟨rfl, proper⟩

end

end LiveMarkup
