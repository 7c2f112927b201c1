import LiveMarkup.Proofs.Afresh

/-! # What strategies are asked to commit

An attribute part is updated any number of times, with whatever happens in between.  Its strategy
may accept or refuse each value, and what it is asked to commit is told from the values and its
answers alone: nothing if the last commit was of the same primitive, was the first of its update and
was accepted, else the value, and the empty value after a refusal.

To tell the commits of an update, its strategy is watched: `Strategy.watched` keeps a record of the
commits next to the state of the environment, and `Unseen` work does not notice.  So the record of
an update is that of an update that is not watched (`Occasion.exists_update`).  What a binding
remembers is then compared with all commits so far (`AttributeBinding.Continues`), one update after
the other. -/

namespace LiveMarkup

variable {α β : Type} {σ : Type}

/-! ## Watching -/

/-- A value that a strategy was asked to commit, and what it answered. -/
structure Commit where
  element : NodeId
  part : AttributePart
  value : Value
  answer : Except ResolutionError Unit

/-- The state of an environment, and all commits so far. -/
abbrev Watched (σ : Type) :=
  σ × List Commit

/-- The same environment, where commits are being recorded. -/
def Environment.watched (environment : Environment σ) : Environment (Watched σ) where
  invoke computation state :=
    let (reply, world) := environment.invoke computation state.1
    (reply, world, state.2)

/-- The same strategy, with a record of its commits. -/
def Strategy.watched (strategy : Strategy σ) : Strategy (Watched σ) where
  claims := strategy.claims
  commit element part value := fun (world, commits) => do
    let (answer, world) ← strategy.commit element part value world
    pure (answer, world, commits ++ [{ element, part, value, answer }])

def Setting.watched (setting : Setting σ) : Setting (Watched σ) where
  environment := setting.environment.watched
  config := setting.config
  strategies := setting.strategies.map (·.watched)

def AttributeBinding.watched (binding : AttributeBinding σ) : AttributeBinding (Watched σ) :=
  { binding with strategy := binding.strategy.watched }

/-! ## Settled values -/

/-- A value that is neither deferred nor a list with a deferred value in it, however deep. -/
inductive Value.IsSettled : Value → Prop where
  | primitive {value : Value} (shape : value.shape = .primitive) : IsSettled value
  | template (template : Template) (values : List Value) : IsSettled (.template template values)
  | items {values : List Value} (inside : ∀ value ∈ values, IsSettled value) :
      IsSettled (.items values)

/-- A value is the same primitive as another if it is that one, and primitive. -/
theorem Value.samePrimitive_iff {value other : Value} :
    value.samePrimitive other ↔ value = other ∧ other.isPrimitive := by
  cases value <;> cases other <;> simp [samePrimitive, isPrimitive, shape]

/-! ## Unseen work -/

/-- Some work does not notice that commits are being recorded, and comes to results as told. -/
def Unseen (watched : ResolveM (Watched σ) α) (plain : ResolveM σ α) (post : α → Prop) : Prop :=
  ∀ world commits stage, ∃ outcome after stage',
    (plain.run.run world).run stage = ((outcome, after), stage') ∧
      (watched.run.run (world, commits)).run stage = ((outcome, after, commits), stage') ∧
      ∀ result, outcome = .ok result → post result

namespace Unseen

variable {post : α → Prop}

protected theorem pure {result : α} (holds : post result) :
    Unseen (σ := σ) (pure result) (pure result) post := by
  intro world commits stage
  refine ⟨.ok result, world, stage, rfl, rfl, ?_⟩
  rintro _ ⟨⟩
  exact holds

theorem throw (error : ResolutionError) :
    Unseen (throw error : ResolveM (Watched σ) α) (throw error) post :=
  fun world _ stage => ⟨.error error, world, stage, rfl, rfl, nofun⟩

theorem bind {watched : ResolveM (Watched σ) β} {plain : ResolveM σ β}
    {next : β → ResolveM (Watched σ) α} {other : β → ResolveM σ α} {between : β → Prop}
    (first : Unseen watched plain between)
    (second : ∀ result, between result → Unseen (next result) (other result) post) :
    Unseen (watched >>= next) (plain >>= other) post := by
  intro world commits stage
  obtain ⟨outcome, after, stage, ran, same, holds⟩ := first world commits stage
  simp only [ExceptT.run_bind, StateT.run_bind, ran, same]
  cases outcome with
  | error error => exact ⟨.error error, after, stage, rfl, rfl, nofun⟩
  | ok result => exact second result (holds result rfl) after commits stage

theorem mapM {watched : Value → ResolveM (Watched σ) Value} {plain : Value → ResolveM σ Value}
    {post : Value → Prop} (each : ∀ value, Unseen (watched value) (plain value) post)
    (values : List Value) :
    Unseen (values.mapM watched) (values.mapM plain)
      fun results => ∀ value ∈ results, post value := by
  induction values with
  | nil =>
    simp only [List.mapM_nil]
    exact .pure nofun
  | cons value values ih =>
    simp only [List.mapM_cons]
    refine (each value).bind fun first settled => ih.bind fun rest more => ?_
    exact .pure (List.forall_mem_cons.mpr ⟨settled, more⟩)

end Unseen

/-! ## Resolving, unseen -/

section

variable (environment : Environment σ)

theorem unseen_call (computation : Deferred) :
    Unseen (environment.watched.call computation) (environment.call computation) fun _ => True :=
  fun world commits stage => ⟨_, _, _, run_call environment computation world stage,
    run_call environment.watched computation (world, commits) stage, fun _ _ => trivial⟩

/-- A chain of deferred values ends with one that is not deferred. -/
theorem unseen_trampoline (limit left : Nat) (value : Value) :
    Unseen (environment.watched.trampoline limit left value)
      (environment.trampoline limit left value) fun value => value.shape ≠ .deferred := by
  induction left generalizing value with
  | zero =>
    cases value with
    | deferred computation => exact .throw _
    | _ => exact .pure nofun
  | succ left ih =>
    cases value with
    | deferred computation =>
      exact (unseen_call environment computation).bind fun value _ => ih value
    | _ => exact .pure nofun

theorem unseen_resolveLevels (limit levels left : Nat) (value : Value) :
    Unseen (environment.watched.resolveLevels limit levels left value)
      (environment.resolveLevels limit levels left value) Value.IsSettled := by
  induction left generalizing value with
  | zero =>
    unfold Environment.resolveLevels
    refine (unseen_trampoline environment limit limit value).bind fun value shown => ?_
    cases value with
    | items values => exact .throw _
    | template template values => exact .pure (.template template values)
    | deferred computation => exact absurd rfl shown
    | _ => exact .pure (.primitive rfl)
  | succ left ih =>
    unfold Environment.resolveLevels
    refine (unseen_trampoline environment limit limit value).bind fun value shown => ?_
    cases value with
    | items values =>
      exact (Unseen.mapM ih values).bind fun results settled => .pure (.items settled)
    | template template values => exact .pure (.template template values)
    | deferred computation => exact absurd rfl shown
    | _ => exact .pure (.primitive rfl)

end

/-! ## Recorded work -/

/-- Some work does not notice that commits are being recorded.  Its results, the commits, and the
diagnostics are as told. -/
def Records (watched : RenderM (Watched σ) β) (plain : RenderM σ α)
    (post : α → β → List Commit → List Diagnostic → Prop) : Prop :=
  ∀ failures world commits stage, ∃ result result' more diagnostics after stage',
    ((plain.run failures).run world).run stage =
        (((result, failures ++ diagnostics.toArray), after), stage') ∧
      ((watched.run failures).run (world, commits)).run stage =
        (((result', failures ++ diagnostics.toArray), after, commits ++ more), stage') ∧
      post result result' more diagnostics

namespace Records

variable {post : α → β → List Commit → List Diagnostic → Prop}

protected theorem pure {result : α} {result' : β} (holds : post result result' [] []) :
    Records (σ := σ) (pure result') (pure result) post :=
  fun failures world commits stage =>
    ⟨result, result', [], [], world, stage, by simp; rfl, by simp; rfl, holds⟩

theorem noting {event : Event} {watched : Unit → RenderM (Watched σ) β}
    {plain : Unit → RenderM σ α} (records : Records (watched ()) (plain ()) post) :
    Records (liftM (Stage.note event) >>= watched) (liftM (Stage.note event) >>= plain) post :=
  fun failures world commits _ => records failures world commits _

theorem mono {watched : RenderM (Watched σ) β} {plain : RenderM σ α}
    {stronger : α → β → List Commit → List Diagnostic → Prop}
    (records : Records watched plain stronger)
    (weaken : ∀ result result' more diagnostics, stronger result result' more diagnostics →
      post result result' more diagnostics) :
    Records watched plain post := by
  intro failures world commits stage
  obtain ⟨result, result', more, diagnostics, after, stage', ran, same, holds⟩ :=
    records failures world commits stage
  exact ⟨result, result', more, diagnostics, after, stage', ran, same, weaken _ _ _ _ holds⟩

/-- A failure that is reported. -/
theorem reporting {part depth : Nat} {error : ResolutionError}
    {watched : Unit → RenderM (Watched σ) β} {plain : Unit → RenderM σ α}
    (records : Records (watched ()) (plain ()) fun result result' more diagnostics =>
      post result result' more (⟨part, depth, error⟩ :: diagnostics)) :
    Records (report part depth error >>= watched) (report part depth error >>= plain) post := by
  intro failures world commits stage
  obtain ⟨result, result', more, diagnostics, after, stage', ran, same, holds⟩ :=
    records (failures.push ⟨part, depth, error⟩) world commits
      { stage with journal := stage.journal.push (.reported ⟨part, depth, error⟩) }
  have behind : failures.push ⟨part, depth, error⟩ ++ diagnostics.toArray =
      failures ++ (⟨part, depth, error⟩ :: diagnostics).toArray :=
    Array.ext' (by simp)
  rw [behind] at ran same
  exact ⟨result, result', more, _, after, stage', ran, same, holds⟩

/-- A value that a strategy is asked to commit. -/
theorem committing {strategy : Strategy σ} {element : NodeId} {part : AttributePart} {value : Value}
    {watched : Except ResolutionError Unit → RenderM (Watched σ) β}
    {plain : Except ResolutionError Unit → RenderM σ α}
    (records : ∀ answer, Records (watched answer) (plain answer)
      fun result result' more diagnostics =>
        post result result' (⟨element, part, value, answer⟩ :: more) diagnostics) :
    Records (liftM (strategy.watched.commit element part value) >>= watched)
      (liftM (strategy.commit element part value) >>= plain) post := by
  intro failures world commits stage
  let committed : (Except ResolutionError Unit × σ) × Stage :=
    ((strategy.commit element part value).run world).run stage
  obtain ⟨result, result', more, diagnostics, after, stage', ran, same, holds⟩ :=
    records committed.1.1 failures committed.1.2
      (commits ++ [⟨element, part, value, committed.1.1⟩]) committed.2
  rw [List.append_assoc] at same
  exact ⟨result, result', _, diagnostics, after, stage', ran, same, holds⟩

end Records

/-! ## One update -/

/-- What comes of giving a binding a resolved value: the binding afterwards, the commits, and the
errors that are reported. -/
inductive AttributeBinding.Takes (binding : AttributeBinding σ) (value : Value) :
    AttributeBinding σ → List Commit → List ResolutionError → Prop where
  | kept (same : binding.last.any (·.samePrimitive value)) : Takes binding value binding [] []
  | accepted (changed : ¬ binding.last.any (·.samePrimitive value)) :
      Takes binding value { binding with last := if value.isPrimitive then some value else none }
        [⟨binding.element, binding.part, value, .ok ()⟩] []
  | refused (changed : ¬ binding.last.any (·.samePrimitive value)) (error : ResolutionError)
      (answer : Except ResolutionError Unit) :
      Takes binding value { binding with last := none }
        [⟨binding.element, binding.part, value, .error error⟩,
          ⟨binding.element, binding.part, .empty, answer⟩] [error]

/-- Diagnostics for the errors of a part. -/
def diagnose (part depth : Nat) (errors : List ResolutionError) : List Diagnostic :=
  errors.map fun error => ⟨part, depth, error⟩

namespace AttributeBinding

/-- Gives a resolved value to a binding. -/
def settle (binding : AttributeBinding σ) (part depth : Nat) (value : Value) :
    RenderM σ (AttributeBinding σ) := do
  if binding.last.any (·.samePrimitive value) then
    Stage.note .attributeSame
    pure binding
  else binding.commit part depth value

/-- Gives a value to a binding that has been resolved, or else the empty one. -/
def finish (binding : AttributeBinding σ) (setting : Setting σ) (part depth : Nat) :
    Except ResolutionError Value → RenderM σ (AttributeBinding σ)
  | .ok value => binding.settle part depth value
  | .error error => do
    report part depth (setting.relabel error)
    binding.settle part depth .empty

theorem update_eq (binding : AttributeBinding σ) (setting : Setting σ) (part depth : Nat)
    (value : Value) :
    binding.update setting part depth value = (do
      let outcome ← (setting.resolveAttribute depth value).run
      binding.finish setting part depth outcome) := by
  unfold update
  congr 1

variable (binding : AttributeBinding σ) (part depth : Nat)

theorem records_settle (value : Value) :
    Records (binding.watched.settle part depth value) (binding.settle part depth value)
      fun after after' more diagnostics => after' = after.watched ∧ ∃ errors,
        binding.Takes value after more errors ∧ diagnostics = diagnose part depth errors := by
  have remembered : binding.watched.last = binding.last := rfl
  unfold settle
  rw [remembered]
  split
  · next same => exact .noting (.pure ⟨rfl, [], .kept same, rfl⟩)
  · next changed =>
    unfold commit
    refine .committing fun answer => ?_
    cases answer with
    | ok => exact .pure ⟨rfl, [], .accepted changed, rfl⟩
    | error error =>
      refine .reporting (.committing fun answer => ?_)
      cases answer with
      | ok => exact .pure ⟨rfl, [error], .refused changed error (.ok ()), rfl⟩
      | error again =>
        exact .noting (.pure ⟨rfl, [error], .refused changed error (.error again), rfl⟩)

end AttributeBinding

/-! ## Occasions -/

/-- One update of a part: what it is made with, and the state of things that it finds. -/
structure Occasion (σ : Type) where
  setting : Setting σ
  part : Nat
  depth : Nat
  value : Value
  failures : Array Diagnostic
  world : σ
  stage : Stage

namespace Occasion

variable (occasion : Occasion σ)

/-- The same occasion, where commits are being recorded. -/
def watched : Occasion (Watched σ) :=
  { occasion with setting := occasion.setting.watched, world := (occasion.world, []) }

/-- What the value resolves to. -/
def resolution : Except ResolutionError Value :=
  (((occasion.setting.resolveAttribute occasion.depth occasion.value).run.run occasion.world).run
    occasion.stage).1.1

/-- What the part is to show: a value that does not resolve counts as empty. -/
def target : Value :=
  match occasion.resolution with
  | .ok value => value
  | .error _ => .empty

/-- The error that is reported if the value does not resolve.  It names the configured limit,
however many levels were left. -/
def failure : Option ResolutionError :=
  match occasion.resolution with
  | .ok _ => none
  | .error (.tooDeep _) => some (.tooDeep occasion.setting.config.depthLimit)
  | .error error => some error

/-- An update of a binding on an occasion, with all that comes of it. -/
def update (binding : AttributeBinding σ) : ((AttributeBinding σ × Array Diagnostic) × σ) × Stage :=
  (((binding.update occasion.setting occasion.part occasion.depth occasion.value).run
    occasion.failures).run occasion.world).run occasion.stage

/-- The diagnostics that there are after an update that reports the given errors. -/
def reported (errors : List ResolutionError) : Array Diagnostic :=
  occasion.failures ++ (diagnose occasion.part occasion.depth errors).toArray

/-- The value resolves to the same, whether commits are being recorded or not. -/
theorem exists_resolution :
    ∃ world stage,
      ((occasion.setting.resolveAttribute occasion.depth occasion.value).run.run
        occasion.world).run occasion.stage = ((occasion.resolution, world), stage) ∧
      ((occasion.watched.setting.resolveAttribute occasion.depth occasion.value).run.run
        occasion.watched.world).run occasion.stage =
          ((occasion.resolution, world, []), stage) ∧
      ∀ value, occasion.resolution = .ok value → value.IsSettled := by
  obtain ⟨outcome, world, stage, ran, same, settled⟩ := unseen_resolveLevels
    occasion.setting.environment occasion.setting.config.maxInvocations
    (occasion.setting.config.depthLimit - occasion.depth)
    (occasion.setting.config.depthLimit - occasion.depth) occasion.value occasion.world []
    occasion.stage
  have resolution : occasion.resolution = outcome := congrArg (·.1.1) ran
  rw [resolution]
  exact ⟨world, stage, ran, same, settled⟩

theorem isSettled_target : occasion.target.IsSettled := by
  obtain ⟨_, _, _, _, settled⟩ := occasion.exists_resolution
  unfold target
  split
  · next value resolves => exact settled value resolves
  · exact .primitive rfl

/-- An update goes on from what the value resolves to. -/
theorem update_of_resolution (binding : AttributeBinding σ) {outcome : Except ResolutionError Value}
    {world : σ} {stage : Stage}
    (ran : ((occasion.setting.resolveAttribute occasion.depth occasion.value).run.run
      occasion.world).run occasion.stage = ((outcome, world), stage)) :
    occasion.update binding =
      (((binding.finish occasion.setting occasion.part occasion.depth outcome).run
        occasion.failures).run world).run stage := by
  have acted : occasion.update binding =
      (((binding.finish occasion.setting occasion.part occasion.depth
        (((occasion.setting.resolveAttribute occasion.depth occasion.value).run.run
          occasion.world).run occasion.stage).1.1).run occasion.failures).run
        (((occasion.setting.resolveAttribute occasion.depth occasion.value).run.run
          occasion.world).run occasion.stage).1.2).run
        (((occasion.setting.resolveAttribute occasion.depth occasion.value).run.run
          occasion.world).run occasion.stage).2 := by
    rw [update, AttributeBinding.update_eq]
    rfl
  rw [acted, ran]

theorem records_finish (binding : AttributeBinding σ) :
    Records
      (binding.watched.finish occasion.watched.setting occasion.part occasion.depth
        occasion.resolution)
      (binding.finish occasion.setting occasion.part occasion.depth occasion.resolution)
      fun after after' more diagnostics => after' = after.watched ∧ ∃ errors,
        binding.Takes occasion.target after more errors ∧ diagnostics =
          diagnose occasion.part occasion.depth (occasion.failure.toList ++ errors) := by
  have settle := binding.records_settle occasion.part occasion.depth occasion.target
  cases found : occasion.resolution with
  | ok value =>
    simp only [target, failure, found] at settle ⊢
    exact settle
  | error error =>
    have renamed : occasion.failure = some (occasion.setting.relabel error) := by
      cases error <;> simp only [failure, found, Setting.relabel]
    simp only [target, renamed, found] at settle ⊢
    refine .reporting (settle.mono ?_)
    rintro after _ more _ ⟨rfl, errors, takes, rfl⟩
    exact ⟨rfl, errors, takes, rfl⟩

/-- All that an update can do, and how it is recorded. -/
theorem exists_update (binding : AttributeBinding σ) :
    ∃ after commits errors world stage, binding.Takes occasion.target after commits errors ∧
      occasion.update binding =
        (((after, occasion.reported (occasion.failure.toList ++ errors)), world), stage) ∧
      occasion.watched.update binding.watched =
        (((after.watched, occasion.reported (occasion.failure.toList ++ errors)), world, commits),
          stage) := by
  obtain ⟨world, stage, ran, same, _⟩ := occasion.exists_resolution
  obtain ⟨after, _, commits, diagnostics, world', stage', plain, recorded, rfl, errors, takes,
    rfl⟩ := occasion.records_finish binding occasion.failures world [] stage
  exact ⟨after, commits, errors, world', stage', takes,
    (occasion.update_of_resolution binding ran).trans plain,
    (occasion.watched.update_of_resolution binding.watched same).trans recorded⟩

end Occasion

/-! ## Histories -/

/-- One update of a part, and the binding that it is made to. -/
structure Round (σ : Type) where
  occasion : Occasion σ
  binding : AttributeBinding σ

namespace Round

variable (round : Round σ)

/-- The binding afterwards. -/
def after : AttributeBinding σ :=
  (round.occasion.update round.binding).1.1.1

/-- All diagnostics that there are afterwards. -/
def failures : Array Diagnostic :=
  (round.occasion.update round.binding).1.1.2

/-- The commits of an update, in order. -/
def commits : List Commit :=
  (round.occasion.watched.update round.binding.watched).1.2.2

/-- The error with which the first commit was refused. -/
def refusal : Option ResolutionError :=
  match round.commits.head? with
  | some ⟨_, _, _, .error error⟩ => some error
  | _ => none

end Round

/-- Successive updates of a binding. -/
def AttributeBinding.rounds (binding : AttributeBinding σ) : List (Occasion σ) → List (Round σ)
  | [] => []
  | occasion :: rest => ⟨occasion, binding⟩ :: (Round.after ⟨occasion, binding⟩).rounds rest

theorem AttributeBinding.map_occasion_rounds (binding : AttributeBinding σ)
    (occasions : List (Occasion σ)) : (binding.rounds occasions).map (·.occasion) = occasions := by
  induction occasions generalizing binding with
  | nil => rfl
  | cons occasion rest ih => simp [rounds, ih]

/-- The last commit was of the given primitive, it was the first of its update, and it was accepted:
a second commit would follow a refusal. -/
def Stands (earlier : List (Round σ)) (value : Value) : Prop :=
  value.isPrimitive ∧ ∃ before round idle commit, earlier = before ++ round :: idle ∧
    (∀ other ∈ idle, other.commits = []) ∧ round.commits = [commit] ∧ commit.value = value ∧
    commit.answer = .ok ()

theorem Round.takes (round : Round σ) :
    ∃ errors, round.binding.Takes round.occasion.target round.after round.commits errors ∧
      round.failures = round.occasion.reported (round.occasion.failure.toList ++ errors) := by
  obtain ⟨after, commits, errors, world, stage, takes, plain, recorded⟩ :=
    round.occasion.exists_update round.binding
  have changed : round.after = after := congrArg (·.1.1.1) plain
  have committed : round.commits = commits := congrArg (·.1.2.2) recorded
  exact ⟨errors, changed ▸ committed ▸ takes, congrArg (·.1.1.2) plain⟩

/-- Before any update nothing stands. -/
theorem not_stands_nil (value : Value) : ¬ Stands ([] : List (Round σ)) value := by
  rintro ⟨-, before, round, idle, commit, split, -⟩
  simp at split

/-- A list with one more element is split at that one, or before it. -/
theorem concat_eq_split {earlier before idle : List α} {last middle : α}
    (split : earlier ++ [last] = before ++ middle :: idle) :
    (idle = [] ∧ middle = last) ∨
      ∃ more, idle = more ++ [last] ∧ earlier = before ++ middle :: more := by
  obtain rfl | ⟨more, other, rfl⟩ := List.eq_nil_or_concat idle
  · exact .inl ⟨rfl, (List.concat_inj.mp (by simpa using split)).2.symm⟩
  · rw [List.concat_eq_append, ← List.cons_append, ← List.append_assoc] at split
    obtain ⟨same, ending⟩ := List.append_inj' split rfl
    simp only [List.cons.injEq, and_true] at ending
    exact .inr ⟨more, by simp [ending], same⟩

theorem stands_concat_of_idle {earlier : List (Round σ)} {round : Round σ} {value : Value}
    (idle : round.commits = []) : Stands (earlier ++ [round]) value ↔ Stands earlier value := by
  constructor
  · rintro ⟨primitive, before, other, quiet, commit, split, none, only, rest⟩
    obtain ⟨-, rfl⟩ | ⟨more, rfl, rfl⟩ := concat_eq_split split
    · rw [idle] at only
      cases only
    · exact ⟨primitive, before, other, more, commit, rfl,
        fun round member => none round (List.mem_append_left _ member), only, rest⟩
  · rintro ⟨primitive, before, other, quiet, commit, rfl, none, only, rest⟩
    refine ⟨primitive, before, other, quiet ++ [round], commit, by simp, ?_, only, rest⟩
    simp only [List.mem_append, List.mem_singleton]
    rintro later (member | rfl)
    · exact none later member
    · exact idle

theorem stands_concat_of_commits {earlier : List (Round σ)} {round : Round σ} {value : Value}
    (active : round.commits ≠ []) : Stands (earlier ++ [round]) value ↔ value.isPrimitive ∧
      ∃ commit, round.commits = [commit] ∧ commit.value = value ∧ commit.answer = .ok () := by
  constructor
  · rintro ⟨primitive, before, other, quiet, commit, split, none, only, rest⟩
    obtain ⟨-, rfl⟩ | ⟨more, rfl, rfl⟩ := concat_eq_split split
    · exact ⟨primitive, commit, only, rest⟩
    · exact absurd (none round (by simp)) active
  · rintro ⟨primitive, commit, only, rest⟩
    exact ⟨primitive, earlier, round, [], commit, rfl, nofun, only, rest⟩

/-! ## The first strategy that claims a part -/

/-- The first of the strategies that claims a part, or the one that sets attributes if none does. -/
def Strategy.IsFirst (strategies : List (Strategy σ)) (part : AttributePart)
    (strategy : Strategy σ) : Prop :=
  (∃ before after, strategies = before ++ strategy :: after ∧ strategy.claims part ∧
      ∀ other ∈ before, ¬ other.claims part) ∨
    (∀ other ∈ strategies, ¬ other.claims part) ∧ strategy = .setAttribute

theorem Strategy.isFirst_choose (strategies : List (Strategy σ)) (part : AttributePart) :
    (Strategy.choose strategies part).IsFirst strategies part := by
  unfold choose
  cases found : strategies.find? (·.claims part) with
  | none => exact .inr ⟨by simpa using found, rfl⟩
  | some strategy =>
    obtain ⟨claims, before, after, rfl, others⟩ := List.find?_eq_some_iff_append.mp found
    exact .inl ⟨before, after, rfl, claims, fun other member => by simpa using others other member⟩

/-! ## The protocol -/

/-- A binding, after some updates, is still of the same part, and it remembers what stands. -/
structure AttributeBinding.Continues (binding : AttributeBinding σ) (strategies : List (Strategy σ))
    (element : NodeId) (part : AttributePart) (earlier : List (Round σ)) : Prop where
  sameElement : binding.element = element
  samePart : binding.part = part
  strategy : binding.strategy.IsFirst strategies part
  remembers : ∀ value, binding.last.any (·.samePrimitive value) ↔ Stands earlier value

/-- What an update does, after others, to a part with the given element. -/
structure Round.Keeps (strategies : List (Strategy σ)) (element : NodeId) (part : AttributePart)
    (earlier : List (Round σ)) (round : Round σ) : Prop where
  /-- The strategy is still that of the time when the binding was made. -/
  strategy : round.binding.strategy.IsFirst strategies part
  /-- Recording the commits does not change what the update does. -/
  faithful : round.occasion.watched.update round.binding.watched =
    let outcome := round.occasion.update round.binding
    (((outcome.1.1.1.watched, outcome.1.1.2), outcome.1.2, round.commits), outcome.2)
  idle : round.commits = [] ↔ Stands earlier round.occasion.target
  commits : round.commits = [] ∨
    round.commits = [⟨element, part, round.occasion.target, .ok ()⟩] ∨
    ∃ error answer, round.commits = [⟨element, part, round.occasion.target, .error error⟩,
      ⟨element, part, .empty, answer⟩]
  reports : round.failures =
    round.occasion.reported (round.occasion.failure.toList ++ round.refusal.toList)
  settled : ∀ commit ∈ round.commits, commit.value.IsSettled
  /-- After a refusal, and after a list or a template, there is always a commit. -/
  again : ∀ previous ∈ earlier.getLast?,
    (∃ commit ∈ previous.commits, commit.answer ≠ .ok () ∨ ¬ commit.value.isPrimitive) →
      round.commits ≠ []

section

variable {strategies : List (Strategy σ)} {element : NodeId} {part : AttributePart}
  {earlier : List (Round σ)} {round : Round σ}

/-- After a refusal, and after a list or a template, nothing stands. -/
theorem not_stands_of_unsettled {previous : Round σ} {commit : Commit}
    (last : previous ∈ earlier.getLast?) (member : commit ∈ previous.commits)
    (unsettled : commit.answer ≠ .ok () ∨ ¬ commit.value.isPrimitive) (value : Value) :
    ¬ Stands earlier value := by
  obtain ⟨before, rfl⟩ := List.getLast?_eq_some_iff.mp last
  rw [stands_concat_of_commits (List.ne_nil_of_mem member)]
  rintro ⟨primitive, only, single, rfl, accepted⟩
  rw [single, List.mem_singleton] at member
  subst member
  exact unsettled.elim (absurd accepted) (absurd primitive)

/-- One update keeps to the protocol. -/
theorem AttributeBinding.Continues.round_keeps
    (continues : round.binding.Continues strategies element part earlier) :
    round.Keeps strategies element part earlier := by
  obtain ⟨rfl, rfl, strategy, remembers⟩ := continues
  obtain ⟨after, commits, errors, world, stage, takes, plain, recorded⟩ :=
    round.occasion.exists_update round.binding
  have committed : round.commits = commits := congrArg (·.1.2.2) recorded
  have reported : round.failures = _ := congrArg (·.1.1.2) plain
  have stands := remembers round.occasion.target
  have settled := round.occasion.isSettled_target
  have idle : round.commits = [] ↔ Stands earlier round.occasion.target := by
    rw [← stands, committed]
    cases takes with
    | kept same => simp [same]
    | accepted changed => simp [changed]
    | refused changed error answer => simp [changed]
  refine ⟨strategy, ?_, idle, ?_, ?_, ?_, ?_⟩
  · rw [recorded, plain, committed]
  · rw [committed]
    cases takes with
    | kept same => exact .inl rfl
    | accepted changed => exact .inr (.inl rfl)
    | refused changed error answer => exact .inr (.inr ⟨error, answer, rfl⟩)
  · rw [reported, Round.refusal, committed]
    cases takes <;> rfl
  · rw [committed]
    cases takes with
    | kept same => nofun
    | accepted changed => simpa using settled
    | refused changed error answer => simpa using ⟨settled, .primitive rfl⟩
  · rintro previous last ⟨commit, member, unsettled⟩ nothing
    exact not_stands_of_unsettled last member unsettled _ (idle.mp nothing)

/-- One update leaves a binding that goes on. -/
theorem AttributeBinding.Continues.after
    (continues : round.binding.Continues strategies element part earlier) :
    round.after.Continues strategies element part (earlier ++ [round]) := by
  obtain ⟨rfl, rfl, strategy, remembers⟩ := continues
  obtain ⟨errors, takes, -⟩ := round.takes
  generalize round.after = after, committed : round.commits = commits at takes
  cases takes with
  | kept same =>
    refine ⟨rfl, rfl, strategy, fun value => ?_⟩
    rw [stands_concat_of_idle committed, remembers value]
  | accepted changed =>
    refine ⟨rfl, rfl, strategy, fun value => ?_⟩
    rw [stands_concat_of_commits (by simp [committed])]
    by_cases primitive : round.occasion.target.isPrimitive
    · simp [committed, primitive, Value.samePrimitive_iff, and_comm]
    · have other : ¬ (value.isPrimitive ∧ round.occasion.target = value) :=
        fun ⟨holds, same⟩ => primitive (same ▸ holds)
      simpa [committed, primitive] using other
  | refused changed error answer =>
    refine ⟨rfl, rfl, strategy, fun value => ?_⟩
    rw [stands_concat_of_commits (by simp [committed])]
    simp [committed]

/-- All updates keep to the protocol, one after another. -/
theorem AttributeBinding.Continues.rounds (occasions : List (Occasion σ))
    {binding : AttributeBinding σ} {past later : List (Round σ)}
    (continues : binding.Continues strategies element part past)
    (split : binding.rounds occasions = earlier ++ round :: later) :
    round.Keeps strategies element part (past ++ earlier) := by
  induction occasions generalizing binding past earlier with
  | nil => simp [AttributeBinding.rounds] at split
  | cons occasion rest ih =>
    let first : Round σ := ⟨occasion, binding⟩
    have keeps : first.Keeps strategies element part past := continues.round_keeps
    cases earlier with
    | nil =>
      obtain ⟨rfl, -⟩ := List.cons.inj split
      simpa using keeps
    | cons other earlier =>
      obtain ⟨rfl, more⟩ := List.cons.inj split
      have next : (past ++ [first]) ++ earlier = past ++ first :: earlier := by simp
      have after : first.after.Continues strategies element part (past ++ [first]) :=
        continues.after
      exact next ▸ ih after more

end

/-! ## From the start -/

namespace Instance

variable {strategies : List (Strategy σ)}

/-- Each part is bound to a node. -/
theorem exists_bind {stage : Stage} {roots : List NodeId} {start index : Nat} {parts : List Part}
    {bindings : List (Binding σ)} {part : Part}
    (bound : bindAll strategies stage roots start parts = .ok bindings)
    (found : parts[index]? = some part) :
    ∃ node, bindings[index]? = some (bind strategies node part) := by
  induction parts generalizing start index bindings with
  | nil => simp at found
  | cons first parts ih =>
    obtain ⟨node, rest, -, later, rfl⟩ := bindAll_cons_eq_ok.mp bound
    cases index with
    | zero =>
      obtain rfl : first = part := by simpa using found
      exact ⟨node, rfl⟩
    | succ index =>
      simp only [List.getElem?_cons_succ] at found ⊢
      exact ih later found

end Instance

/-- The binding of an attribute part keeps to the protocol from when its instance was made on:
whatever the strategies answer, with whatever settings and values it is updated, and whatever else
happens in between. -/
theorem Instance.attribute_updates_keep {strategies : List (Strategy σ)} {template : Template}
    {stage : Stage} {inner : Instance σ} {index : Nat} {part : AttributePart}
    (made : ((Instance.make strategies template).run stage).1 = .ok inner)
    (found : template.blueprint.parts[index]? = some (.attribute part))
    (occasions : List (Occasion σ)) :
    ∃ binding : AttributeBinding σ, inner.bindings[index]? = some (.attribute binding) ∧
      (binding.rounds occasions).map (·.occasion) = occasions ∧
      ∀ earlier round later, binding.rounds occasions = earlier ++ round :: later →
        round.Keeps strategies binding.element part earlier := by
  obtain ⟨-, copied, bindings⟩ := bindAll_of_make made
  obtain ⟨node, bound⟩ := exists_bind bindings found
  have start : AttributeBinding.Continues
      ⟨node, part, Strategy.choose strategies part, none⟩ strategies node part [] :=
    ⟨rfl, rfl, Strategy.isFirst_choose strategies part,
      fun value => by simpa using not_stands_nil value⟩
  exact ⟨_, bound, AttributeBinding.map_occasion_rounds _ occasions,
    fun earlier round later split => start.rounds occasions split⟩

/-- A strategy that refuses texts, and counts how often it does. -/
def Strategy.textless : Strategy Nat where
  claims part := part.rawName = "X"
  commit _ _
    | .text _ => do
      modify (· + 1)
      pure (.error (.refused "no texts"))
    | _ => pure (.ok ())

/-- An occasion in an empty document. -/
def Occasion.plain (value : Value) : Occasion Nat where
  setting := ⟨Environment.counting, {}, []⟩
  part := 0
  depth := 0
  value := value
  failures := #[]
  world := 0
  stage := .empty {}

theorem attribute_updates_keep_textless :
    ∃ inner binding,
      ((Instance.make [Strategy.textless] Template.labelled).run (.empty {})).1 = .ok inner ∧
      inner.bindings[0]? = some (.attribute binding) ∧
      (binding.rounds [.plain (.text "a"), .plain .empty]).length = 2 ∧
      ∀ earlier round later,
        binding.rounds [.plain (.text "a"), .plain .empty] = earlier ++ round :: later →
          round.Keeps [Strategy.textless] binding.element ⟨[0], "x", "X"⟩ earlier := by
  have made : ((Instance.make [Strategy.textless] Template.labelled).run (.empty {})).1 =
      .ok (.mk Template.labelled [⟨0⟩] [.attribute ⟨⟨0⟩, ⟨[0], "x", "X"⟩, Strategy.textless, none⟩,
        .outlet (.vacant ⟨2⟩)]) :=
    rfl
  have found : Template.labelled.blueprint.parts[0]? = some (.attribute ⟨[0], "x", "X"⟩) := rfl
  obtain ⟨binding, bound, all, keeps⟩ :=
    Instance.attribute_updates_keep made found [.plain (.text "a"), .plain .empty]
  exact ⟨_, binding, made, bound, by simpa using congrArg List.length all, keeps⟩

end LiveMarkup
