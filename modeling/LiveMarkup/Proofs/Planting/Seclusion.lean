import LiveMarkup.Proofs.History
import LiveMarkup.Proofs.Planting.Settling

/-! # Deferred values that share no state

Computations of one kind may go by a part of the environment's state that those of another kind leave
alone.  What a value settles to then depends on that part alone, and values of the other kind do not
matter to it.

Work is `Steady` if from any two states that are related it comes to the same result and takes down
the same diagnostics.  With suitable relations it says that work goes by a part of the state, or
that it leaves a part alone. -/

namespace LiveMarkup

open Markup Reading

variable {α β : Type} {σ τ υ : Type}

/-! ## Kinds of computations -/

/-- All computations in a value are of a kind. -/
inductive Value.Invokes (kind : Deferred → Prop) : Value → Prop where
  | primitive {value : Value} (shape : value.shape = .primitive) : Invokes kind value
  | template {template : Template} {values : List Value}
      (inside : ∀ value ∈ values, Invokes kind value) : Invokes kind (.template template values)
  | items {values : List Value} (inside : ∀ value ∈ values, Invokes kind value) :
      Invokes kind (.items values)
  | deferred {computation : Deferred} (holds : kind computation) :
      Invokes kind (.deferred computation)

/-- Computations of a kind only yield values with computations of that kind. -/
def Environment.Closed (environment : Environment τ) (kind : Deferred → Prop) : Prop :=
  ∀ computation, kind computation → ∀ world value,
    (environment.invoke computation world).1.outcome = .ok value → value.Invokes kind

/-- Computations of a kind go by what there is to be seen of the state. -/
structure Environment.GoesBy (environment : Environment τ) (kind : Deferred → Prop) (view : τ → υ) :
    Prop where
  closed : environment.Closed kind
  outcome : ∀ computation, kind computation → ∀ world world', view world = view world' →
    (environment.invoke computation world).1.outcome =
      (environment.invoke computation world').1.outcome
  next : ∀ computation, kind computation → ∀ world world', view world = view world' →
    view (environment.invoke computation world).2 = view (environment.invoke computation world').2

/-- Computations of a kind leave what there is to be seen of the state as it is. -/
structure Environment.LeavesAlone (environment : Environment τ) (kind : Deferred → Prop)
    (view : τ → υ) : Prop where
  closed : environment.Closed kind
  same : ∀ computation, kind computation → ∀ world,
    view (environment.invoke computation world).2 = view world

/-- Computations of a kind have the same outcome in related states, and keep them related. -/
structure Environment.Respects (environment : Environment τ) (kind : Deferred → Prop)
    (related : τ → τ → Prop) : Prop where
  closed : environment.Closed kind
  outcome : ∀ computation, kind computation → ∀ world world', related world world' →
    (environment.invoke computation world).1.outcome =
      (environment.invoke computation world').1.outcome
  next : ∀ computation, kind computation → ∀ world world', related world world' →
    related (environment.invoke computation world).2 (environment.invoke computation world').2

namespace Environment

variable {environment : Environment τ} {kind : Deferred → Prop} {view : τ → υ}

/-- States that look the same go on to do so. -/
theorem GoesBy.respects (goes : environment.GoesBy kind view) :
    environment.Respects kind fun world world' => view world = view world' :=
  ⟨goes.closed, goes.outcome, goes.next⟩

/-- What there is to be seen of a state does not change. -/
theorem LeavesAlone.respects (leaves : environment.LeavesAlone kind view) (seen : υ) :
    environment.Respects kind fun world world' => world = world' ∧ view world = seen where
  closed := leaves.closed
  outcome := by
    rintro computation holds world _ ⟨rfl, -⟩
    rfl
  next := by
    rintro computation holds world _ ⟨rfl, agree⟩
    exact ⟨rfl, (leaves.same computation holds world).trans agree⟩

/-- Invocations of other computations leave a view alone when they are traced. -/
theorem LeavesAlone.traced (leaves : environment.LeavesAlone kind view) :
    environment.traced.LeavesAlone kind fun state => view state.1 where
  closed computation holds state := leaves.closed computation holds state.1
  same computation holds state := leaves.same computation holds state.1

/-- An environment with two kinds of computations.  Those of even numbers count how often they are
invoked.  The others fail, and leave a mark that those of even numbers do not see. -/
def paired : Environment Nat where
  invoke computation count :=
    if computation.number % 2 = 0 then
      (⟨.ok (.integer (Int64.ofNat (count / 2))), []⟩, count + 2)
    else (⟨.error (.failed "odd"), []⟩, 2 * (count / 2) + (1 - count % 2))

theorem yields_paired {sort : Template → Prop} : paired.Yields sort := by
  intro computation count value reply
  simp only [paired] at reply
  split at reply
  · cases reply
    exact .primitive rfl
  · cases reply

theorem goesBy_paired : paired.GoesBy (·.number % 2 = 0) (· / 2) where
  closed := by
    intro computation even count value reply
    simp only [paired, even, if_true] at reply
    cases reply
    exact .primitive rfl
  outcome := by
    intro computation even count count' agree
    simp only [paired, even, if_true]
    rw [agree]
  next := by
    intro computation even count count' agree
    simp only [paired, even, if_true]
    omega

theorem leavesAlone_paired : paired.LeavesAlone (·.number % 2 = 1) (· / 2) where
  closed := by
    intro computation odd count value reply
    simp [paired, odd] at reply
  same := by
    intro computation odd count
    have even : ¬ computation.number % 2 = 0 := by omega
    simp only [paired, if_neg even]
    omega

theorem goesBy_paired_odd : paired.GoesBy (·.number % 2 = 1) (· % 2) where
  closed := leavesAlone_paired.closed
  outcome := by
    intro computation odd count count' agree
    have even : ¬ computation.number % 2 = 0 := by omega
    simp only [paired, if_neg even]
  next := by
    intro computation odd count count' agree
    have even : ¬ computation.number % 2 = 0 := by omega
    simp only [paired, if_neg even]
    omega

theorem leavesAlone_paired_even : paired.LeavesAlone (·.number % 2 = 0) (· % 2) where
  closed := goesBy_paired.closed
  same := by
    intro computation even count
    simp only [paired, even, if_true]
    omega

end Environment

/-! ## Steady work -/

section

variable {related : τ → τ → Prop}

/-- From related states, an attempt comes to the same, and to related states. -/
def SteadyAttempt (related : τ → τ → Prop) (action : AttemptM τ α) (post : α → Prop) : Prop :=
  ∀ world world', related world world' → ∃ outcome after after',
    action.run.run world = (outcome, after) ∧ action.run.run world' = (outcome, after') ∧
      related after after' ∧ ∀ result, outcome = .ok result → post result

/-- From related states, some work comes to the same result, takes down the same diagnostics, and
comes to related states. -/
def Steady (related : τ → τ → Prop) (action : ReadM τ α) : Prop :=
  ∀ world world' taken taken', related world world' → ∃ result more after after',
    (action.run taken).run world = ((result, taken ++ more), after) ∧
      (action.run taken').run world' = ((result, taken' ++ more), after') ∧ related after after'

namespace SteadyAttempt

variable {post : α → Prop}

protected theorem pure {result : α} (holds : post result) :
    SteadyAttempt related (pure result : AttemptM τ α) post := by
  intro world world' agree
  refine ⟨.ok result, world, world', rfl, rfl, agree, ?_⟩
  rintro _ ⟨⟩
  exact holds

theorem throw (error : ResolutionError) :
    SteadyAttempt related (throw error : AttemptM τ α) post :=
  fun world world' agree => ⟨.error error, world, world', rfl, rfl, agree, nofun⟩

theorem bind {action : AttemptM τ β} {next : β → AttemptM τ α} {between : β → Prop}
    (first : SteadyAttempt related action between)
    (second : ∀ result, between result → SteadyAttempt related (next result) post) :
    SteadyAttempt related (action >>= next) post := by
  intro world world' agree
  obtain ⟨outcome, between, between', ran, ran', agree, holds⟩ := first world world' agree
  rw [ExceptT.run_bind, StateT.run_bind, StateT.run_bind, ran, ran']
  cases outcome with
  | error error => exact ⟨.error error, between, between', rfl, rfl, agree, nofun⟩
  | ok result => exact second result (holds result rfl) between between' agree

end SteadyAttempt

namespace Steady

protected theorem pure (result : α) : Steady related (pure result : ReadM τ α) :=
  fun world world' _ _ agree => ⟨result, #[], world, world', by simp; rfl, by simp; rfl, agree⟩

theorem bind {action : ReadM τ β} {next : β → ReadM τ α} (first : Steady related action)
    (second : ∀ result, Steady related (next result)) : Steady related (action >>= next) := by
  intro world world' taken taken' agree
  obtain ⟨result, some, between, between', ran, ran', agree⟩ :=
    first world world' taken taken' agree
  obtain ⟨final, more, after, after', ended, ended', agree⟩ :=
    second result between between' (taken ++ some) (taken' ++ some) agree
  refine ⟨final, some ++ more, after, after', ?_, ?_, agree⟩
  · rw [StateT.run_bind, StateT.run_bind, ran, ← Array.append_assoc]
    exact ended
  · rw [StateT.run_bind, StateT.run_bind, ran', ← Array.append_assoc]
    exact ended'

theorem complain (part depth : Nat) (error : ResolutionError) :
    Steady related (complain part depth error : ReadM τ Unit) :=
  fun world world' _ _ agree => ⟨(), #[⟨part, depth, error⟩], world, world', rfl, rfl, agree⟩

/-- An attempt in the course of some work. -/
theorem attempt {action : AttemptM τ β} {next : Except ResolutionError β → ReadM τ α}
    {post : β → Prop} (first : SteadyAttempt related action post)
    (second : ∀ outcome, (∀ result, outcome = .ok result → post result) →
      Steady related (next outcome)) :
    Steady related (liftM action.run >>= next) := by
  intro world world' taken taken' agree
  obtain ⟨outcome, between, between', ran, ran', agree, holds⟩ := first world world' agree
  obtain ⟨result, more, after, after', ended, ended', agree⟩ :=
    second outcome holds between between' taken taken' agree
  refine ⟨result, more, after, after', ?_, ?_, agree⟩
  · change ((next (action.run.run world).1).run taken).run (action.run.run world).2 = _
    rw [ran]
    exact ended
  · change ((next (action.run.run world').1).run taken').run (action.run.run world').2 = _
    rw [ran']
    exact ended'

end Steady

/-! ## Settling -/

section

variable {environment : Environment τ} {kind : Deferred → Prop} {config : Config}

theorem steady_invoked (respects : environment.Respects kind related) {computation : Deferred}
    (holds : kind computation) :
    SteadyAttempt related (invoked environment computation) (·.Invokes kind) := by
  intro world world' agree
  have outcome := respects.outcome computation holds world world' agree
  have next := respects.next computation holds world world' agree
  refine ⟨_, _, _, run_invoked environment computation world, ?_, next, fun value same => ?_⟩
  · rw [run_invoked, outcome]
  · cases reply : (environment.invoke computation world).1.outcome with
    | error fault => simp [reply, Except.mapError] at same
    | ok result =>
      simp only [reply, Except.mapError, Except.ok.injEq] at same
      subst same
      exact respects.closed computation holds world _ reply

theorem steady_settled (respects : environment.Respects kind related) (left : Nat) {value : Value}
    (invokes : value.Invokes kind) :
    SteadyAttempt related (settled environment config left value) (·.Invokes kind) := by
  induction left generalizing value with
  | zero =>
    cases value with
    | deferred computation => exact .throw _
    | _ => exact .pure invokes
  | succ left ih =>
    cases value with
    | deferred computation =>
      cases invokes with
      | primitive shape => cases shape
      | deferred holds =>
        exact .bind (steady_invoked respects holds) fun value invokes => ih invokes
    | _ => exact .pure invokes

theorem steady_mapM {action : Value → AttemptM τ Value} {values : List Value}
    (each : ∀ value ∈ values, SteadyAttempt related (action value) fun _ => True) :
    SteadyAttempt related (values.mapM action) fun _ => True := by
  induction values with
  | nil =>
    rw [List.mapM_nil]
    exact .pure trivial
  | cons value values ih =>
    rw [List.mapM_cons]
    obtain ⟨here, behind⟩ := List.forall_mem_cons.mp each
    exact .bind here fun first _ => .bind (ih behind) fun rest _ => .pure trivial

theorem Value.Invokes.of_items {values : List Value} (invokes : (Value.items values).Invokes kind) :
    ∀ value ∈ values, value.Invokes kind := by
  cases invokes with
  | primitive shape => cases shape
  | items inside => exact inside

theorem Value.Invokes.of_template {template : Template} {values : List Value}
    (invokes : (Value.template template values).Invokes kind) :
    ∀ value ∈ values, value.Invokes kind := by
  cases invokes with
  | primitive shape => cases shape
  | template inside => exact inside

theorem steady_settledDeep (respects : environment.Respects kind related) (levels : Nat)
    {value : Value} (invokes : value.Invokes kind) :
    SteadyAttempt related (settledDeep environment config levels value) fun _ => True := by
  induction levels generalizing value with
  | zero =>
    unfold settledDeep
    refine .bind (steady_settled respects _ invokes) fun value invokes => ?_
    cases value with
    | items values => exact .throw _
    | _ => exact .pure trivial
  | succ levels ih =>
    unfold settledDeep
    refine .bind (steady_settled respects _ invokes) fun value invokes => ?_
    cases value with
    | items values =>
      refine .bind (steady_mapM fun value member => ?_) fun values _ => .pure trivial
      exact ih (invokes.of_items value member)
    | _ => exact .pure trivial

namespace Settling

theorem steady_attributeValue (respects : environment.Respects kind related) (part depth : Nat)
    {value : Value} (invokes : value.Invokes kind) :
    Steady related (attributeValue environment config part depth value) := by
  unfold attributeValue
  refine .attempt (steady_settledDeep respects _ invokes) fun outcome _ => ?_
  cases outcome with
  | error error => exact .bind (.complain part depth error) fun _ => .pure _
  | ok value =>
    dsimp only
    split
    · exact .bind (.complain part depth _) fun _ => .pure _
    · exact .pure _

/-- What the value of one part settles to. -/
def part (environment : Environment τ) (config : Config) (content : Nat → Value → ReadM τ Value)
    (depth index : Nat) : Part → Value → ReadM τ Value
  | .attribute _, value => attributeValue environment config index depth value
  | .node _, value => content index value

/-- Ways to settle the values of anchors that are steady for values of a kind. -/
def SteadyContent (kind : Deferred → Prop) (related : τ → τ → Prop)
    (content : Nat → Value → ReadM τ Value) : Prop :=
  ∀ part {value : Value}, value.Invokes kind → Steady related (content part value)

section

variable {content : Nat → Value → ReadM τ Value}

theorem steady_part (respects : environment.Respects kind related)
    (steady : SteadyContent kind related content) (depth index : Nat) (entry : Part)
    {value : Value} (invokes : value.Invokes kind) :
    Steady related (part environment config content depth index entry value) := by
  obtain _ | _ := entry
  · exact steady_attributeValue respects index depth invokes
  · exact steady index invokes

theorem parts_cons (depth index : Nat) (first : Part) (rest : List Part) (value : Value)
    (values : List Value) :
    parts environment config content depth index (first :: rest) (value :: values) = (do
      let here ← part environment config content depth index first value
      let others ← parts environment config content depth (index + 1) rest values
      pure (here :: others)) := by
  cases first <;> rfl

@[simp] theorem parts_nil (depth index : Nat) (list : List Part) :
    parts environment config content depth index list [] = pure [] := by
  cases list <;> rfl

/-- One more of the values settles after those before it. -/
theorem parts_take_succ (depth index : Nat) {list : List Part} {values : List Value} {count : Nat}
    {entry : Part} (there : list[count]? = some entry) {value : Value}
    (given : values[count]? = some value) :
    parts environment config content depth index list (values.take (count + 1)) = (do
      let before ← parts environment config content depth index list (values.take count)
      let last ← part environment config content depth (index + count) entry value
      pure (before ++ [last])) := by
  induction count generalizing index list values with
  | zero =>
    obtain _ | ⟨first, list⟩ := list
    · cases there
    · obtain _ | ⟨head, values⟩ := values
      · cases given
      · cases there
        cases given
        simp [parts_cons]
  | succ count ih =>
    obtain _ | ⟨first, list⟩ := list
    · cases there
    · obtain _ | ⟨head, values⟩ := values
      · cases given
      · rw [List.take_succ_cons, parts_cons, ih (index + 1) there given, List.take_succ_cons,
          parts_cons, Nat.add_right_comm, Nat.add_assoc]
        simp

theorem steady_parts (respects : environment.Respects kind related)
    (steady : SteadyContent kind related content) (depth index : Nat) (list : List Part)
    {values : List Value} (invokes : ∀ value ∈ values, value.Invokes kind) :
    Steady related (parts environment config content depth index list values) := by
  induction list generalizing index values with
  | nil =>
    unfold parts
    exact .pure _
  | cons first rest ih =>
    cases values with
    | nil =>
      unfold parts
      exact .pure _
    | cons value values =>
      obtain ⟨here, behind⟩ := List.forall_mem_cons.mp invokes
      rw [parts_cons]
      exact .bind (steady_part respects steady depth index first here) fun _ =>
        .bind (ih (index + 1) behind) fun _ => .pure _

end

theorem steady_items {content : Value → ReadM τ Value} {values : List Value}
    (each : ∀ value ∈ values, Steady related (content value)) :
    Steady related (items content values) := by
  induction values with
  | nil => exact .pure _
  | cons value values ih =>
    obtain ⟨here, behind⟩ := List.forall_mem_cons.mp each
    exact .bind here fun _ => .bind (ih behind) fun _ => .pure _

theorem steady_content (respects : environment.Respects kind related) (room : Nat) :
    SteadyContent kind related (content environment config room) := by
  induction room with
  | zero => exact fun part _ _ => .bind (.complain part _ _) fun _ => .pure _
  | succ room ih =>
    intro part value invokes
    unfold content
    refine .attempt (steady_settled respects _ invokes) fun outcome holds => ?_
    match outcome with
    | .error error => exact .bind (.complain part _ error) fun _ => .pure _
    | .ok (.template template values) =>
      have inside := (holds _ rfl).of_template
      dsimp only
      rw [map_eq_pure_bind]
      exact .bind (steady_parts respects ih _ 0 _ inside) fun _ => .pure _
    | .ok (.items values) =>
      have inside := (holds _ rfl).of_items
      dsimp only
      rw [map_eq_pure_bind]
      exact .bind (steady_items fun value member => ih part (inside value member)) fun _ => .pure _
    | .ok .empty | .ok (.text _) | .ok (.integer _) | .ok (.float _) | .ok (.bool _)
    | .ok (.deferred _) => exact .pure _

end Settling

end

end

end LiveMarkup
