import LiveMarkup.Proofs.Committing
import LiveMarkup.Proofs.History

/-! # What deep resolution comes to

Deep resolution is told by rules here, which neither run nor share anything: a chain of deferred values
is as long as it is (`Environment.Chain`), a limit cuts it off (`Environment.Trampolines`), and a list
is resolved item by item and built anew (`Environment.Resolves`).

Resolution can also spare the copy of a list that has nothing deferred in it
(`Environment.resolveNested`).  A value that is lent is the very one that was given, so that a list
of which all items are lent need not be built anew. -/

namespace LiveMarkup

variable {α β σ : Type}

namespace Environment

/-! ## Rules -/

section

variable (environment : Environment σ)

/-- A deferred value is invoked, and what comes of it, for as long as it is deferred.  The chain ends in
a value or a fault. -/
inductive Chain : Value → σ → List Deferred → Except Fault Value → σ → Prop where
  | done {value : Value} {world : σ} (final : value.shape ≠ .deferred) :
      Chain value world [] (.ok value) world
  | broken {computation : Deferred} {world : σ} {fault : Fault}
      (reply : (environment.invoke computation world).1.outcome = .error fault) :
      Chain (.deferred computation) world [computation] (.error fault)
        (environment.invoke computation world).2
  | further {computation : Deferred} {world after : σ} {value : Value} {calls : List Deferred}
      {ending : Except Fault Value}
      (reply : (environment.invoke computation world).1.outcome = .ok value)
      (later : Chain value (environment.invoke computation world).2 calls ending after) :
      Chain (.deferred computation) world (computation :: calls) ending after

/-- Some invocations have come to a value, which may be deferred again. -/
inductive Leads : Value → σ → List Deferred → Value → σ → Prop where
  | refl (value : Value) (world : σ) : Leads value world [] value world
  | further {computation : Deferred} {world after : σ} {next value : Value} {calls : List Deferred}
      (reply : (environment.invoke computation world).1.outcome = .ok next)
      (later : Leads next (environment.invoke computation world).2 calls value after) :
      Leads (.deferred computation) world (computation :: calls) value after

/-- A chain ends within the limit, or it is cut off there. -/
inductive Trampolines (limit : Nat) (value : Value) (world : σ) :
    List Deferred → Except ResolutionError Value → σ → Prop where
  | ends {calls : List Deferred} {ending : Except Fault Value} {after : σ}
      (chain : environment.Chain value world calls ending after) (within : calls.length ≤ limit) :
      Trampolines limit value world calls (ending.mapError .fault) after
  | exceeds {calls : List Deferred} {computation : Deferred} {after : σ}
      (leads : environment.Leads value world calls (.deferred computation) after)
      (all : calls.length = limit) :
      Trampolines limit value world calls (.error (.unresolved limit)) after

mutual

/-- What comes of a value that has some lists around it. -/
inductive Resolves (limit levels : Nat) :
    Nat → Value → σ → List Deferred → Except ResolutionError Value → σ → Prop where
  | failed {around : Nat} {value : Value} {world after : σ} {calls : List Deferred}
      {error : ResolutionError}
      (chain : environment.Trampolines limit value world calls (.error error) after) :
      Resolves limit levels around value world calls (.error error) after
  | single {around : Nat} {value result : Value} {world after : σ} {calls : List Deferred}
      (chain : environment.Trampolines limit value world calls (.ok result) after)
      (noList : result.shape ≠ .items) :
      Resolves limit levels around value world calls (.ok result) after
  | tooDeep {around : Nat} {value : Value} {values : List Value} {world after : σ}
      {calls : List Deferred}
      (chain : environment.Trampolines limit value world calls (.ok (.items values)) after)
      (deep : levels ≤ around) :
      Resolves limit levels around value world calls (.error (.tooDeep levels)) after
  | items {around : Nat} {value : Value} {values : List Value} {world between after : σ}
      {calls more : List Deferred} {outcome : Except ResolutionError (List Value)}
      (chain : environment.Trampolines limit value world calls (.ok (.items values)) between)
      (shallow : around < levels)
      (inside : ResolvesAll limit levels (around + 1) values between more outcome after) :
      Resolves limit levels around value world (calls ++ more) (outcome.map .items) after

/-- What comes of items, one after another, up to the first one that fails. -/
inductive ResolvesAll (limit levels : Nat) :
    Nat → List Value → σ → List Deferred → Except ResolutionError (List Value) → σ → Prop where
  | nil {around : Nat} {world : σ} : ResolvesAll limit levels around [] world [] (.ok []) world
  | failed {around : Nat} {value : Value} {values : List Value} {world after : σ}
      {calls : List Deferred} {error : ResolutionError}
      (first : Resolves limit levels around value world calls (.error error) after) :
      ResolvesAll limit levels around (value :: values) world calls (.error error) after
  | cons {around : Nat} {value result : Value} {values : List Value} {world between after : σ}
      {calls more : List Deferred} {outcome : Except ResolutionError (List Value)}
      (first : Resolves limit levels around value world calls (.ok result) between)
      (rest : ResolvesAll limit levels around values between more outcome after) :
      ResolvesAll limit levels around (value :: values) world (calls ++ more)
        (outcome.map (result :: ·)) after

end

end

/-! ## One outcome -/

section

variable {environment : Environment σ} {limit levels around : Nat} {value : Value} {world : σ}
  {calls calls' : List Deferred} {after after' : σ}

theorem Chain.unique {ending ending' : Except Fault Value}
    (chain : environment.Chain value world calls ending after)
    (other : environment.Chain value world calls' ending' after') :
    calls = calls' ∧ ending = ending' ∧ after = after' := by
  induction chain generalizing calls' with
  | done final =>
    cases other with
    | done => exact ⟨rfl, rfl, rfl⟩
    | broken | further => exact absurd rfl final
  | broken reply =>
    cases other with
    | done final => exact absurd rfl final
    | broken reply' =>
      cases reply.symm.trans reply'
      exact ⟨rfl, rfl, rfl⟩
    | further reply' => cases reply.symm.trans reply'
  | further reply later ih =>
    cases other with
    | done final => exact absurd rfl final
    | broken reply' => cases reply.symm.trans reply'
    | further reply' later' =>
      cases reply.symm.trans reply'
      obtain ⟨rfl, rfl, rfl⟩ := ih later'
      exact ⟨rfl, rfl, rfl⟩

/-- As long as a chain leads to deferred values, it has not ended. -/
theorem Chain.take_of_leads {ending : Except Fault Value} {computation : Deferred}
    (chain : environment.Chain value world calls ending after)
    (leads : environment.Leads value world calls' (.deferred computation) after') :
    calls'.length < calls.length ∧ calls' = calls.take calls'.length := by
  induction chain generalizing calls' with
  | done final =>
    cases leads with
    | refl | further => exact absurd rfl final
  | broken reply =>
    cases leads with
    | refl => exact ⟨Nat.one_pos, rfl⟩
    | further reply' => cases reply.symm.trans reply'
  | further reply later ih =>
    cases leads with
    | refl => exact ⟨Nat.succ_pos _, rfl⟩
    | further reply' leads =>
      cases reply.symm.trans reply'
      obtain ⟨shorter, same⟩ := ih leads
      exact ⟨Nat.succ_lt_succ shorter, by rw [List.length_cons, List.take_succ_cons, ← same]⟩

theorem Leads.unique {result result' : Value}
    (leads : environment.Leads value world calls result after)
    (other : environment.Leads value world calls' result' after')
    (together : calls.length = calls'.length) :
    calls = calls' ∧ result = result' ∧ after = after' := by
  induction leads generalizing calls' with
  | refl =>
    cases other with
    | refl => exact ⟨rfl, rfl, rfl⟩
    | further => cases together
  | further reply later ih =>
    cases other with
    | refl => cases together
    | further reply' later' =>
      cases reply.symm.trans reply'
      obtain ⟨rfl, rfl, rfl⟩ := ih later' (Nat.succ.inj together)
      exact ⟨rfl, rfl, rfl⟩

theorem Trampolines.unique {outcome outcome' : Except ResolutionError Value}
    (first : environment.Trampolines limit value world calls outcome after)
    (second : environment.Trampolines limit value world calls' outcome' after') :
    calls = calls' ∧ outcome = outcome' ∧ after = after' := by
  cases first with
  | ends chain within =>
    cases second with
    | ends chain' =>
      obtain ⟨rfl, rfl, rfl⟩ := chain.unique chain'
      exact ⟨rfl, rfl, rfl⟩
    | exceeds leads all =>
      have shorter := (chain.take_of_leads leads).1
      omega
  | exceeds leads all =>
    cases second with
    | ends chain within =>
      have shorter := (chain.take_of_leads leads).1
      omega
    | exceeds leads' all' =>
      obtain ⟨rfl, -, rfl⟩ := leads.unique leads' (all.trans all'.symm)
      exact ⟨rfl, rfl, rfl⟩

mutual

/-- The rules leave no choice. -/
theorem Resolves.unique {around : Nat} {value : Value} {world after after' : σ}
    {calls calls' : List Deferred} {outcome outcome' : Except ResolutionError Value} :
    environment.Resolves limit levels around value world calls outcome after →
      environment.Resolves limit levels around value world calls' outcome' after' →
        calls = calls' ∧ outcome = outcome' ∧ after = after'
  -- Chains leave no choice, so the other derivation has the same result of the chain here, and
  -- with it ends by the same rule.
  | .failed chain, other => by
    cases other with
    | failed chain' => exact chain.unique chain'
    | single chain' | tooDeep chain' | items chain' => cases (chain.unique chain').2.1
  | .single chain noList, other => by
    cases other with
    | failed chain' => cases (chain.unique chain').2.1
    | single chain' => exact chain.unique chain'
    | tooDeep chain' | items chain' =>
      cases (chain.unique chain').2.1
      exact absurd rfl noList
  | .tooDeep chain deep, other => by
    cases other with
    | failed chain' => cases (chain.unique chain').2.1
    | single chain' noList =>
      cases (chain.unique chain').2.1
      exact absurd rfl noList
    | tooDeep chain' =>
      obtain ⟨rfl, -, rfl⟩ := chain.unique chain'
      exact ⟨rfl, rfl, rfl⟩
    | items _ shallow => omega
  | .items chain shallow inside, other => by
    cases other with
    | failed chain' => cases (chain.unique chain').2.1
    | single chain' noList =>
      cases (chain.unique chain').2.1
      exact absurd rfl noList
    | tooDeep _ deep => omega
    | items chain' _ inside' =>
      obtain ⟨rfl, same, rfl⟩ := chain.unique chain'
      cases same
      obtain ⟨rfl, rfl, rfl⟩ := inside.unique inside'
      exact ⟨rfl, rfl, rfl⟩

theorem ResolvesAll.unique {around : Nat} {values : List Value} {world after after' : σ}
    {calls calls' : List Deferred} {outcome outcome' : Except ResolutionError (List Value)} :
    environment.ResolvesAll limit levels around values world calls outcome after →
      environment.ResolvesAll limit levels around values world calls' outcome' after' →
        calls = calls' ∧ outcome = outcome' ∧ after = after'
  | .nil, other => by
    cases other
    exact ⟨rfl, rfl, rfl⟩
  | .failed first, other => by
    cases other with
    | failed first' =>
      obtain ⟨rfl, same, rfl⟩ := first.unique first'
      cases same
      exact ⟨rfl, rfl, rfl⟩
    | cons first' => cases (first.unique first').2.1
  | .cons first rest, other => by
    cases other with
    | failed first' => cases (first.unique first').2.1
    | cons first' rest' =>
      obtain ⟨rfl, same, rfl⟩ := first.unique first'
      cases same
      obtain ⟨rfl, rfl, rfl⟩ := rest.unique rest'
      exact ⟨rfl, rfl, rfl⟩

end

end

/-! ## Sharing -/

/-- What a value has been resolved to: the very value that was given, or a new one. -/
inductive Shared where
  | lent (value : Value)
  | owned (value : Value)

namespace Shared

def content : Shared → Value
  | lent value | owned value => value

def isOwned : Shared → Bool
  | lent _ => false
  | owned _ => true

end Shared

/-- Invokes a deferred value, and what comes of it, as long as it is deferred and invocations are left.
Whatever is yielded is new. -/
def trampolineShared (environment : Environment σ) (limit : Nat) :
    Nat → Shared → ResolveM σ Shared
  | left, shared =>
    match shared.content, left with
    | .deferred _, 0 => throw (.unresolved limit)
    | .deferred computation, left + 1 => do
      environment.trampolineShared limit left (.owned (← environment.call computation))
    | _, _ => pure shared

/-- Resolves a value that has some lists around it, and all items in it.  A list is built anew only if
some item is new. -/
def resolveNested (environment : Environment σ) (limit levels around : Nat) (value : Value) :
    ResolveM σ Shared := do
  let resolved ← environment.trampolineShared limit limit (.lent value)
  match resolved.content with
  | .items values =>
    if levels ≤ around then throw (.tooDeep levels)
    else
      let items ← values.mapM (environment.resolveNested limit levels (around + 1))
      if items.any (·.isOwned) then pure (.owned (.items (items.map (·.content))))
      else pure resolved
  | _ => pure resolved
  termination_by levels - around

/-! ## Programs and rules -/

/-- From a state on, a program comes to an outcome as told, after the invocations that are told. -/
def Comes (program : ResolveM (σ × List Deferred) α) (world : σ)
    (post : List Deferred → Except ResolutionError α → σ → Prop) : Prop :=
  ∀ before stage, ∃ calls outcome after stage',
    (program.run.run (world, before)).run stage = ((outcome, after, before ++ calls), stage') ∧
      post calls outcome after

namespace Comes

variable {world : σ} {post : List Deferred → Except ResolutionError α → σ → Prop}

protected theorem pure {result : α} (holds : post [] (.ok result) world) :
    Comes (pure result) world post :=
  fun before stage => ⟨[], .ok result, world, stage, by rw [List.append_nil]; rfl, holds⟩

theorem throw {error : ResolutionError} (holds : post [] (.error error) world) :
    Comes (throw error) world post :=
  fun before stage => ⟨[], .error error, world, stage, by rw [List.append_nil]; rfl, holds⟩

theorem mono {stronger : List Deferred → Except ResolutionError α → σ → Prop}
    {program : ResolveM (σ × List Deferred) α} (comes : Comes program world stronger)
    (weaken : ∀ calls outcome after, stronger calls outcome after → post calls outcome after) :
    Comes program world post := by
  intro before stage
  obtain ⟨calls, outcome, after, stage', ran, holds⟩ := comes before stage
  exact ⟨calls, outcome, after, stage', ran, weaken _ _ _ holds⟩

/-- A program comes to one outcome, about which all is true that is told. -/
theorem and {other : List Deferred → Except ResolutionError α → σ → Prop}
    {program : ResolveM (σ × List Deferred) α} (comes : Comes program world post)
    (also : Comes program world other) :
    Comes program world fun calls outcome after =>
      post calls outcome after ∧ other calls outcome after := by
  intro before stage
  obtain ⟨calls, outcome, after, stage', ran, holds⟩ := comes before stage
  obtain ⟨calls', outcome', after', stage'', ran', holds'⟩ := also before stage
  have same : ((outcome, after, before ++ calls), stage') =
      ((outcome', after', before ++ calls'), stage'') := ran.symm.trans ran'
  simp only [Prod.mk.injEq, List.append_cancel_left_eq] at same
  obtain ⟨⟨rfl, rfl, rfl⟩, rfl⟩ := same
  exact ⟨calls, outcome, after, stage', ran, holds, holds'⟩

theorem bind {program : ResolveM (σ × List Deferred) β}
    {next : β → ResolveM (σ × List Deferred) α}
    {between : List Deferred → Except ResolutionError β → σ → Prop}
    (first : Comes program world between)
    (failed : ∀ calls error after, between calls (.error error) after →
      post calls (.error error) after)
    (second : ∀ calls result after, between calls (.ok result) after →
      Comes (next result) after fun more outcome final => post (calls ++ more) outcome final) :
    Comes (program >>= next) world post := by
  intro before stage
  obtain ⟨calls, outcome, after, stage', ran, holds⟩ := first before stage
  simp only [ExceptT.run_bind, StateT.run_bind, ran]
  cases outcome with
  | error error => exact ⟨calls, .error error, after, stage', rfl, failed _ _ _ holds⟩
  | ok result =>
    obtain ⟨more, outcome, final, stage'', ran', holds'⟩ :=
      second calls result after holds (before ++ calls) stage'
    rw [List.append_assoc] at ran'
    exact ⟨calls ++ more, outcome, final, stage'', ran', holds'⟩

end Comes

section

variable (environment : Environment σ)

theorem comes_call (computation : Deferred) (world : σ) :
    Comes (environment.traced.call computation) world fun calls outcome after =>
      calls = [computation] ∧
        outcome = (environment.invoke computation world).1.outcome.mapError .fault ∧
        after = (environment.invoke computation world).2 :=
  fun before stage =>
    ⟨_, _, _, _, run_call environment.traced computation (world, before) stage, rfl, rfl, rfl⟩

/-- What a chain comes to if only so many invocations are left. -/
def Within (limit left : Nat) (value : Value) (world : σ) (calls : List Deferred)
    (outcome : Except ResolutionError Value) (after : σ) : Prop :=
  (∃ ending, environment.Chain value world calls ending after ∧ calls.length ≤ left ∧
      outcome = ending.mapError .fault) ∨
    ∃ computation, environment.Leads value world calls (.deferred computation) after ∧
      calls.length = left ∧ outcome = .error (.unresolved limit)

variable {environment} {limit left : Nat} {world : σ} {value : Value} {calls : List Deferred}
  {outcome : Except ResolutionError Value} {after : σ}

theorem Within.trampolines (within : environment.Within limit limit value world calls outcome after) :
    environment.Trampolines limit value world calls outcome after := by
  obtain ⟨ending, chain, short, rfl⟩ | ⟨computation, leads, all, rfl⟩ := within
  · exact .ends chain short
  · exact .exceeds leads all

theorem Within.broken {computation : Deferred} {fault : Fault}
    (reply : (environment.invoke computation world).1.outcome = .error fault) :
    environment.Within limit (left + 1) (.deferred computation) world [computation]
      (.error (.fault fault)) (environment.invoke computation world).2 :=
  .inl ⟨_, .broken reply, Nat.succ_le_succ (Nat.zero_le left), rfl⟩

theorem Within.further {computation : Deferred} {next : Value}
    (reply : (environment.invoke computation world).1.outcome = .ok next)
    (within : environment.Within limit left next (environment.invoke computation world).2 calls
      outcome after) :
    environment.Within limit (left + 1) (.deferred computation) world (computation :: calls) outcome
      after := by
  obtain ⟨ending, chain, short, same⟩ | ⟨last, leads, all, same⟩ := within
  · exact .inl ⟨ending, .further reply chain, Nat.succ_le_succ short, same⟩
  · exact .inr ⟨last, .further reply leads, congrArg Nat.succ all, same⟩

/-- What comes of one invocation, if what is done with the value that it yields is known. -/
theorem comes_invocation {computation : Deferred} {next : Value → ResolveM (σ × List Deferred) α}
    (view : Except ResolutionError α → Except ResolutionError Value)
    (errors : ∀ error, view (.error error) = .error error)
    (later : ∀ value, Comes (next value) (environment.invoke computation world).2
      fun calls outcome after => environment.Within limit left value
        (environment.invoke computation world).2 calls (view outcome) after) :
    Comes (environment.traced.call computation >>= next) world fun calls outcome after =>
      environment.Within limit (left + 1) (.deferred computation) world calls (view outcome) after := by
  refine (comes_call environment computation world).bind ?_ ?_
  · rintro _ error _ ⟨rfl, failed, rfl⟩
    cases reply : (environment.invoke computation world).1.outcome with
    | error fault =>
      rw [reply] at failed
      cases failed
      rw [errors]
      exact .broken reply
    | ok value =>
      rw [reply] at failed
      cases failed
  · rintro _ value _ ⟨rfl, yielded, rfl⟩
    cases reply : (environment.invoke computation world).1.outcome with
    | error fault =>
      rw [reply] at yielded
      cases yielded
    | ok other =>
      rw [reply] at yielded
      cases yielded
      exact (later value).mono fun calls outcome after within => .further reply within

theorem comes_trampoline (limit left : Nat) (value : Value) (world : σ) :
    Comes (environment.traced.trampoline limit left value) world
      (environment.Within limit left value world) := by
  have ends {left : Nat} {value : Value} {world : σ} (final : value.shape ≠ .deferred) :
      environment.Within limit left value world [] (.ok value) world :=
    .inl ⟨.ok value, .done final, Nat.zero_le left, rfl⟩
  induction left generalizing value world with
  | zero =>
    cases value with
    | deferred computation => exact .throw (.inr ⟨computation, .refl _ _, rfl, rfl⟩)
    | _ => exact .pure (ends nofun)
  | succ left ih =>
    cases value with
    | deferred computation =>
      exact comes_invocation id (fun _ => rfl) fun value => ih value _
    | _ => exact .pure (ends nofun)

/-- A chain ends as it does when nothing is shared. -/
theorem comes_trampolineShared (limit left : Nat) (shared : Shared) (world : σ) :
    Comes (environment.traced.trampolineShared limit left shared) world
      fun calls outcome after =>
        environment.Within limit left shared.content world calls (outcome.map Shared.content) after := by
  have ends {left : Nat} {shared : Shared} {world : σ} (final : shared.content.shape ≠ .deferred) :
      environment.Within limit left shared.content world [] (.ok shared.content) world :=
    .inl ⟨.ok shared.content, .done final, Nat.zero_le left, rfl⟩
  induction left generalizing shared world with
  | zero =>
    unfold trampolineShared
    cases given : shared.content with
    | deferred computation => exact .throw (.inr ⟨computation, .refl _ _, rfl, rfl⟩)
    | _ => exact .pure (given ▸ ends (by rw [given]; exact nofun))
  | succ left ih =>
    unfold trampolineShared
    cases given : shared.content with
    | deferred computation =>
      exact comes_invocation (·.map Shared.content) (fun _ => rfl) fun value => ih (.owned value) _
    | _ => exact .pure (given ▸ ends (by rw [given]; exact nofun))

/-- What comes out of a chain is new, unless nothing had to be invoked. -/
theorem kept_trampolineShared (limit left : Nat) (shared : Shared) (world : σ) :
    Comes (environment.traced.trampolineShared limit left shared) world fun _ outcome _ =>
      ∀ result, outcome = .ok result → result.isOwned ∨ result = shared := by
  induction left generalizing shared world with
  | zero =>
    unfold trampolineShared
    cases shared.content with
    | deferred computation => exact .throw nofun
    | _ => exact .pure fun result same => .inr (Except.ok.inj same).symm
  | succ left ih =>
    unfold trampolineShared
    cases shared.content with
    | deferred computation =>
      refine (comes_call environment computation world).bind (fun _ _ _ _ => nofun) ?_
      refine fun _ value after _ => (ih (.owned value) after).mono fun _ _ _ kept result same => ?_
      obtain owned | rfl := kept result same
      · exact .inl owned
      · exact .inl rfl
    | _ => exact .pure fun result same => .inr (Except.ok.inj same).symm

/-! ## Nested lists -/

/-- Items come to what the rules say if each of them does. -/
theorem comes_mapM {limit levels around : Nat} {resolve : Value → ResolveM (σ × List Deferred) β}
    {view : β → Value}
    (each : ∀ value world, Comes (resolve value) world fun calls outcome after =>
      environment.Resolves limit levels around value world calls (outcome.map view) after)
    (values : List Value) (world : σ) :
    Comes (values.mapM resolve) world fun calls outcome after =>
      environment.ResolvesAll limit levels around values world calls
        (outcome.map fun results => results.map view) after := by
  induction values generalizing world with
  | nil =>
    rw [List.mapM_nil]
    exact .pure .nil
  | cons value values ih =>
    rw [List.mapM_cons]
    refine (each value world).bind (fun _ _ _ first => .failed first) fun calls result between first => ?_
    refine (ih between).bind (fun more error after rest => .cons first rest) ?_
    intro more results after rest
    refine .pure ?_
    rw [List.append_nil]
    exact .cons first rest

/-- Items that are lent are those that were given, if this is so for each of them. -/
theorem lent_mapM {resolve : Value → ResolveM (σ × List Deferred) Shared}
    (each : ∀ value world, Comes (resolve value) world fun _ outcome _ =>
      ∀ result, outcome = .ok result → result.isOwned ∨ result = .lent value)
    (values : List Value) (world : σ) :
    Comes (values.mapM resolve) world fun _ outcome _ => ∀ results, outcome = .ok results →
      results.any (·.isOwned) ∨ results.map Shared.content = values := by
  induction values generalizing world with
  | nil =>
    rw [List.mapM_nil]
    refine .pure ?_
    rintro _ ⟨⟩
    exact .inr rfl
  | cons value values ih =>
    rw [List.mapM_cons]
    refine (each value world).bind (fun _ _ _ _ => nofun) fun _ result between first => ?_
    refine (ih between).bind (fun _ _ _ _ => nofun) fun _ results after rest => .pure ?_
    rintro _ ⟨⟩
    obtain owned | rfl := first result rfl
    · exact .inl (by simp [owned])
    obtain owned | same := rest results rfl
    · exact .inl (by simp [owned])
    · exact .inr (by rw [List.map_cons, same]; rfl)

/-- Resolving comes to what the rules say. -/
theorem comes_resolveLevels (limit levels left around : Nat) (total : around + left = levels)
    (value : Value) (world : σ) :
    Comes (environment.traced.resolveLevels limit levels left value) world
      (environment.Resolves limit levels around value world) := by
  -- The rules count the lists around a value, the definition those that may still be inside of it.
  induction left generalizing around value world with
  | zero =>
    unfold resolveLevels
    refine (comes_trampoline limit limit value world).bind
      (fun _ _ _ within => .failed within.trampolines) fun calls result after within => ?_
    have chain := within.trampolines
    cases result with
    | items values => exact .throw (by rw [List.append_nil]; exact .tooDeep chain (by omega))
    | _ => exact .pure (by rw [List.append_nil]; exact .single chain Shape.noConfusion)
  | succ left ih =>
    unfold resolveLevels
    refine (comes_trampoline limit limit value world).bind
      (fun _ _ _ within => .failed within.trampolines) fun calls result between within => ?_
    have chain := within.trampolines
    cases result with
    | items values =>
      have each (value : Value) (world : σ) :
          Comes (environment.traced.resolveLevels limit levels left value) world
            fun calls outcome after => environment.Resolves limit levels (around + 1) value world
              calls (outcome.map id) after := by
        simpa only [Except.map_id, id] using ih (around + 1) (by omega) value world
      refine (comes_mapM each values between).bind
        (fun _ _ _ inside => .items chain (by omega) inside) fun more results after inside => ?_
      refine .pure ?_
      simp only [Except.map, List.map_id, List.append_nil] at inside ⊢
      exact .items chain (by omega) inside
    | _ => exact .pure (by rw [List.append_nil]; exact .single chain Shape.noConfusion)

/-- Resolving without needless copies comes to what the rules say, too, and a value that is lent is the
one that was given. -/
theorem comes_resolveNested (limit levels around : Nat) (value : Value) (world : σ) :
    Comes (environment.traced.resolveNested limit levels around value) world
      fun calls outcome after => environment.Resolves limit levels around value world calls
          (outcome.map Shared.content) after ∧
        ∀ result, outcome = .ok result → result.isOwned ∨ result = .lent value := by
  unfold resolveNested
  -- What is resolved and what is lent are about one and the same outcome, hence both at once.
  refine ((comes_trampolineShared limit limit (.lent value) world).and
    (kept_trampolineShared limit limit (.lent value) world)).bind ?_ ?_
  · exact fun calls error after ⟨within, _⟩ => ⟨.failed within.trampolines, nofun⟩
  intro calls resolved between ⟨within, kept⟩
  have chain := within.trampolines
  have kept : resolved.isOwned ∨ resolved = .lent value := kept resolved rfl
  cases found : resolved.content with
  | items values =>
    rw [Except.map, found] at chain
    dsimp only
    split
    · next deep => exact .throw ⟨by rw [List.append_nil]; exact .tooDeep chain deep, nofun⟩
    next shallow =>
    have shallow : around < levels := Nat.lt_of_not_le shallow
    have each := comes_resolveNested limit levels (around + 1)
    have items := comes_mapM (fun value world => (each value world).mono fun _ _ _ => And.left) values
    have lent := lent_mapM (fun value world => (each value world).mono fun _ _ _ => And.right) values
    refine ((items between).and (lent between)).bind
      (fun more error after ⟨inside, _⟩ => ⟨.items chain shallow inside, nofun⟩) ?_
    intro more items after ⟨inside, lent⟩
    have resolves := Resolves.items chain shallow inside
    split
    · next owned =>
      refine .pure ⟨?_, fun result same => .inl (by cases same; rfl)⟩
      rw [List.append_nil]
      exact resolves
    · next none =>
      -- No item is new, so the list that would be built is the one that is there.
      have same := (lent items rfl).resolve_left none
      refine .pure ⟨?_, fun result same => by cases same; exact kept⟩
      simp only [Except.map, same, found, List.append_nil] at resolves ⊢
      exact resolves
  | _ =>
    refine .pure ⟨?_, fun result same => by cases same; exact kept⟩
    rw [List.append_nil]
    refine .single chain ?_
    rw [found]
    exact nofun
  termination_by levels - around

/-! ## Agreement -/

/-- Deep resolution comes to what the rules say, and to nothing else, whether or not lists are shared.
A chain of deferred values that ends is invoked as often as it takes, or as often as the limit allows if
that is less, and one that is cut off, or never ends, is reported.  What has been resolved is settled. -/
theorem resolveDeep_agrees (environment : Environment σ) (limit levels : Nat) (value : Value)
    (world : σ) (stage : Stage) :
    let resolved : Except ResolutionError Value × σ × List Deferred :=
      (((environment.traced.resolve limit value).run.run (world, [])).run stage).1
    let deep : Except ResolutionError Value × σ × List Deferred :=
      (((environment.traced.resolveDeep limit levels value).run.run (world, [])).run stage).1
    let shared : Except ResolutionError Shared × σ × List Deferred :=
      (((environment.traced.resolveNested limit levels 0 value).run.run (world, [])).run stage).1
    (∀ calls ending after, environment.Chain value world calls ending after →
      if calls.length ≤ limit then resolved = (ending.mapError .fault, after, calls)
      else resolved.1 = .error (.unresolved limit) ∧ resolved.2.2 = calls.take limit) ∧
    ((∀ calls ending after, ¬ environment.Chain value world calls ending after) →
      resolved.1 = .error (.unresolved limit) ∧ resolved.2.2.length = limit ∧
        ∃ computation, environment.Leads value world resolved.2.2 (.deferred computation)
          resolved.2.1) ∧
    (∀ calls outcome after, environment.Resolves limit levels 0 value world calls outcome after ↔
      deep = (outcome, after, calls)) ∧
    (shared.1.map Shared.content, shared.2) = deep ∧
    ∀ result, deep.1 = .ok result → result.IsSettled := by
  intro resolved deep shared
  have chains : Comes (environment.traced.trampoline limit limit value) world _ :=
    comes_trampoline limit limit value world
  have resolving : Comes (environment.traced.resolveDeep limit levels value) world _ :=
    comes_resolveLevels limit levels levels 0 (Nat.zero_add levels) value world
  have sharing : Comes (environment.traced.resolveNested limit levels 0 value) world _ :=
    comes_resolveNested limit levels 0 value world
  obtain ⟨first, ending, after, _, ran, within⟩ := chains [] stage
  obtain ⟨calls, outcome, final, _, ran', resolves⟩ := resolving [] stage
  obtain ⟨calls', outcome', final', _, ran'', resolves', -⟩ := sharing [] stage
  have known : resolved = (ending, after, first) := congrArg Prod.fst ran
  have knownDeep : deep = (outcome, final, calls) := congrArg Prod.fst ran'
  have knownShared : shared = (outcome', final', calls') := congrArg Prod.fst ran''
  rw [known, knownDeep, knownShared]
  -- The rules leave no choice, so what each of the three has come to is all that there is.
  refine ⟨fun taken result last chain => ?_, fun endless => ?_, fun taken result last => ?_, ?_, ?_⟩
  · split
    · next short =>
      obtain ⟨rfl, rfl, rfl⟩ := within.trampolines.unique (.ends chain short)
      rfl
    · next long =>
      obtain ⟨_, chain', short, -⟩ | ⟨computation, leads, all, rfl⟩ := within
      · obtain ⟨rfl, -, -⟩ := chain.unique chain'
        exact absurd short long
      · exact ⟨rfl, all ▸ (chain.take_of_leads leads).2⟩
  · obtain ⟨_, chain, -, -⟩ | ⟨computation, leads, all, rfl⟩ := within
    · exact absurd chain (endless _ _ _)
    · exact ⟨rfl, all, computation, leads⟩
  · constructor
    · intro other
      obtain ⟨rfl, rfl, rfl⟩ := resolves.unique other
      rfl
    · rintro ⟨⟩
      exact resolves
  · obtain ⟨rfl, same, rfl⟩ := resolves.unique resolves'
    rw [← same]
  · -- Settled values do not depend on who is watching.
    obtain ⟨_, _, _, plain, -, settled⟩ :=
      unseen_resolveLevels environment.traced limit levels levels value (world, []) [] stage
    cases plain.symm.trans ran'
    exact settled

end

end Environment

end LiveMarkup
