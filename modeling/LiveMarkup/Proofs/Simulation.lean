import LiveMarkup.Proofs.Reading
import LiveMarkup.Render.Renderer

/-! # Work on a stage, and the reading it goes along with

`Performs` tells what an action does to the document of a stage that does not fall short.  `Follows`
compares an action which depends on the environment with a reading of it, and `Simulates` compares
one that also reports failures: the two invoke the same computations, end in related states of their
environments, and report the same diagnostics.

Environments are compared by `Environment.Alike`: they need not be the same, but have to behave
alike from related states on. -/

namespace LiveMarkup

open Markup

variable {α β γ δ : Type} {σ τ : Type}

/-! ## Actions on a stage -/

/-- An action takes a document to one that is as told, and gives a result that is as told. -/
def Performs (action : StageM α) (document : Document) (post : α → Document → Prop) : Prop :=
  ∀ stage : Stage, stage.document = document → stage.shortcomings = {} →
    let outcome : α × Stage := action.run stage
    outcome.2.shortcomings = {} ∧ post outcome.1 outcome.2.document

namespace Performs

variable {document : Document} {post : α → Document → Prop}

protected theorem pure {result : α} (holds : post result document) :
    Performs (Pure.pure result) document post := by
  intro stage same whole
  exact ⟨whole, same ▸ holds⟩

theorem bind {action : StageM β} {next : β → StageM α} {between : β → Document → Prop}
    (first : Performs action document between)
    (second : ∀ result after, between result after → Performs (next result) after post) :
    Performs (action >>= next) document post := by
  intro stage same whole
  obtain ⟨wholeAfter, holds⟩ := first stage same whole
  exact second _ _ holds _ rfl wholeAfter

theorem mono {action : StageM α} {stronger : α → Document → Prop}
    (performs : Performs action document stronger)
    (weaken : ∀ result after, stronger result after → post result after) :
    Performs action document post := by
  intro stage same whole
  obtain ⟨wholeAfter, holds⟩ := performs stage same whole
  exact ⟨wholeAfter, weaken _ _ holds⟩

theorem get {next : Stage → StageM α}
    (performs : ∀ stage : Stage, stage.document = document → stage.shortcomings = {} →
      Performs (next stage) document post) :
    Performs (MonadState.get >>= next) document post := by
  intro stage same whole
  exact performs stage same whole stage same whole

/-- An entry in the journal, which is not part of the document. -/
theorem noting {event : Event} {next : Unit → StageM α} (performs : Performs (next ()) document post) :
    Performs (Stage.note event >>= next) document post := by
  intro stage same whole
  exact performs _ same whole

variable {post : Unit → Document → Prop}

theorem edit {change : Document → Document} (holds : post () (change document)) :
    Performs (Stage.edit change) document post := by
  intro stage same whole
  subst same
  exact ⟨whole, holds⟩

theorem note {event : Event} (holds : post () document) :
    Performs (Stage.note event) document post := by
  intro stage same whole
  exact ⟨whole, same ▸ holds⟩

theorem create {data : NodeData} {post : NodeId → Document → Prop}
    (holds : post ⟨document.size⟩ (document.create data).2) :
    Performs (Stage.create data) document post := by
  intro stage same whole
  subst same
  exact ⟨whole, holds⟩

end Performs

/-! ## Environments -/

/-- Values made of templates of one sort, each with a value for each of its parts. -/
inductive Value.Proper (sort : Template → Prop) : Value → Prop where
  | primitive {value : Value} (shape : value.shape = .primitive) : Proper sort value
  | template {template : Template} {values : List Value} (fits : sort template)
      (count : values.length = template.blueprint.parts.length)
      (inside : ∀ value ∈ values, Proper sort value) : Proper sort (.template template values)
  | items {values : List Value} (inside : ∀ value ∈ values, Proper sort value) :
      Proper sort (.items values)
  | deferred (computation : Deferred) : Proper sort (.deferred computation)

theorem Value.proper_take {sort : Template → Prop} {values : List Value}
    (proper : ∀ value ∈ values, value.Proper sort) (count : Nat) :
    ∀ value ∈ values.take count, value.Proper sort :=
  fun value member => proper value (List.mem_of_mem_take member)

theorem Value.proper_drop {sort : Template → Prop} {values : List Value}
    (proper : ∀ value ∈ values, value.Proper sort) (count : Nat) :
    ∀ value ∈ values.drop count, value.Proper sort :=
  fun value member => proper value (List.mem_of_mem_drop member)

/-- Two environments yield the same, proper values from related states on. -/
structure Environment.Alike (sort : Template → Prop) (related : σ → τ → Prop)
    (environment : Environment σ) (other : Environment τ) : Prop where
  outcome : ∀ computation world world', related world world' →
    (environment.invoke computation world).1.outcome =
      (other.invoke computation world').1.outcome
  proper : ∀ computation world world', related world world' → ∀ value,
    (environment.invoke computation world).1.outcome = .ok value → value.Proper sort
  next : ∀ computation world world', related world world' →
    related (environment.invoke computation world).2 (other.invoke computation world').2

/-! ## Actions in an environment -/

/-- An action that leaves the document as it is and whose result is related to that of a reading. -/
def Follows (related : σ → τ → Prop) (action : SceneM σ α) (reading : StateM τ β)
    (same : α → β → Prop) : Prop :=
  ∀ (stage : Stage) world other, related world other →
    let outcome : (α × σ) × Stage := (action.run world).run stage
    let read : β × τ := reading.run other
    related outcome.1.2 read.2 ∧ outcome.2.document = stage.document ∧
      outcome.2.shortcomings = stage.shortcomings ∧ same outcome.1.1 read.1

namespace Follows

variable {related : σ → τ → Prop} {same : α → β → Prop}

protected theorem pure {result : α} {read : β} (holds : same result read) :
    Follows related (Pure.pure result) (Pure.pure read) same := by
  intro stage world other agree
  exact ⟨agree, rfl, rfl, holds⟩

theorem bind {action : SceneM σ γ} {next : γ → SceneM σ α} {reading : StateM τ δ}
    {more : δ → StateM τ β} {between : γ → δ → Prop}
    (first : Follows related action reading between)
    (second : ∀ result read, between result read →
      Follows related (next result) (more read) same) :
    Follows related (action >>= next) (reading >>= more) same := by
  intro stage world other agree
  obtain ⟨agree, kept, whole, holds⟩ := first stage world other agree
  obtain ⟨agree', kept', whole', holds'⟩ := second _ _ holds _ _ _ agree
  exact ⟨agree', kept'.trans kept, whole'.trans whole, holds'⟩

end Follows

/-! ## Actions that report -/

/-- An action whose result and effect on the document are related to the result of a reading, and
which reports what the reading takes down. -/
def Simulates (related : σ → τ → Prop) (action : RenderM σ α) (reading : ReadM τ β)
    (document : Document) (post : α → β → Document → Prop) : Prop :=
  ∀ (stage : Stage) world other reported taken, stage.document = document →
    stage.shortcomings = {} → related world other → reported = taken →
    let outcome : ((α × Array Diagnostic) × σ) × Stage :=
      ((action.run reported).run world).run stage
    let read : (β × Array Diagnostic) × τ := (reading.run taken).run other
    outcome.1.1.2 = read.1.2 ∧ related outcome.1.2 read.2 ∧ outcome.2.shortcomings = {} ∧
      post outcome.1.1.1 read.1.1 outcome.2.document

namespace Simulates

variable {related : σ → τ → Prop} {document : Document} {post : α → β → Document → Prop}

protected theorem pure {result : α} {read : β} (holds : post result read document) :
    Simulates related (Pure.pure result) (Pure.pure read) document post := by
  intro stage world other reported taken same whole agree reports
  exact ⟨reports, agree, whole, same ▸ holds⟩

theorem bind {action : RenderM σ γ} {next : γ → RenderM σ α} {reading : ReadM τ δ}
    {more : δ → ReadM τ β} {between : γ → δ → Document → Prop}
    (first : Simulates related action reading document between)
    (second : ∀ result read after, between result read after →
      Simulates related (next result) (more read) after post) :
    Simulates related (action >>= next) (reading >>= more) document post := by
  intro stage world other reported taken same whole agree reports
  obtain ⟨reports', agree', whole', holds⟩ :=
    first stage world other reported taken same whole agree reports
  exact second _ _ _ holds _ _ _ _ _ rfl whole' agree' reports'

theorem mono {action : RenderM σ α} {reading : ReadM τ β} {stronger : α → β → Document → Prop}
    (simulates : Simulates related action reading document stronger)
    (weaken : ∀ result read after, stronger result read after → post result read after) :
    Simulates related action reading document post := by
  intro stage world other reported taken same whole agree reports
  obtain ⟨reports', agree', whole', holds⟩ :=
    simulates stage world other reported taken same whole agree reports
  exact ⟨reports', agree', whole', weaken _ _ _ holds⟩

/-- Work on the stage alone, which a reading has no part in. -/
theorem perform {action : StageM γ} {next : γ → RenderM σ α} {reading : ReadM τ β}
    {between : γ → Document → Prop} (performs : Performs action document between)
    (simulates : ∀ result after, between result after →
      Simulates related (next result) reading after post) :
    Simulates related (liftM action >>= next) reading document post := by
  intro stage world other reported taken same whole agree reports
  obtain ⟨whole', holds⟩ := performs stage same whole
  exact simulates _ _ holds _ world other _ _ rfl whole' agree reports

/-- Work on the stage at the end of an action. -/
theorem performed {action : StageM α} {read : β} {between : α → Document → Prop}
    (performs : Performs action document between)
    (holds : ∀ result after, between result after → post result read after) :
    Simulates related (liftM action) (Pure.pure read) document post := by
  intro stage world other reported taken same whole agree reports
  obtain ⟨whole', holds'⟩ := performs stage same whole
  exact ⟨reports, agree, whole', holds _ _ holds'⟩

theorem scene {action : StageM γ} {next : γ → RenderM σ α} {reading : ReadM τ β}
    {between : γ → Document → Prop} (performs : Performs action document between)
    (simulates : ∀ result after, between result after →
      Simulates related (next result) reading after post) :
    Simulates related (liftM (liftM action : SceneM σ γ) >>= next) reading document post :=
  perform performs simulates

theorem mapping {action : RenderM σ δ} {convert : δ → γ} {next : γ → RenderM σ α}
    {reading : ReadM τ β}
    (simulates : Simulates related (action >>= fun result => next (convert result)) reading document
      post) :
    Simulates related (convert <$> action >>= next) reading document post :=
  simulates

theorem follow {action : SceneM σ γ} {next : γ → RenderM σ α} {reading : StateM τ δ}
    {more : δ → ReadM τ β} {between : γ → δ → Prop}
    (follows : Follows related action reading between)
    (simulates : ∀ result read, between result read →
      Simulates related (next result) (more read) document post) :
    Simulates related (liftM action >>= next) (liftM reading >>= more) document post := by
  intro stage world other reported taken same whole agree reports
  obtain ⟨agree', kept, whole', holds⟩ := follows stage world other agree
  exact simulates _ _ holds _ _ _ _ _ (kept.trans same) (whole'.trans whole) agree' reports

theorem noting {event : Event} {next : Unit → RenderM σ α} {reading : ReadM τ β}
    (simulates : Simulates related (next ()) reading document post) :
    Simulates related (liftM (Stage.note event) >>= next) reading document post := by
  intro stage world other reported taken same whole agree reports
  exact simulates _ world other _ _ same whole agree reports

/-- A failure is taken down by the action and by the reading alike. -/
theorem reporting {part depth : Nat} {error : ResolutionError} {next : Unit → RenderM σ α}
    {more : Unit → ReadM τ β} (simulates : Simulates related (next ()) (more ()) document post) :
    Simulates related (report part depth error >>= next)
      (Reading.complain part depth error >>= more) document post := by
  intro stage world other reported taken same whole agree reports
  subst reports
  exact simulates _ world other _ _ same whole agree rfl

end Simulates

end LiveMarkup
