import LiveMarkup.Proofs.Planting.Isolation
import LiveMarkup.Proofs.Planting.Retending

/-! # Rendering again

A result whose computations come to the same each time they are invoked is rendered twice into one
container.  The second call reports what the first one has reported and leaves the document as it is.
It records nothing but that attributes are set again, and only those that have been given a list or a
refused template.

What a call leaves in the container is at rest (`Plot.settles_tend`).  Besides, both calls read the
same values, and the second one finds the bed of the first. -/

namespace LiveMarkup

open Document Markup Reading

variable {α β : Type} {σ τ : Type} {sort : Template → Prop}

/-! ## What a reading comes to -/

/-- Whatever an attempt comes to is as told. -/
def Attains (action : AttemptM τ α) (post : α → Prop) : Prop :=
  ∀ world result, (action.run.run world).1 = .ok result → post result

/-- Whatever some work comes to is as told. -/
def Gives (action : ReadM τ α) (post : α → Prop) : Prop :=
  ∀ taken world, post ((action.run taken).run world).1.1

namespace Attains

variable {post : α → Prop}

protected theorem pure {result : α} (holds : post result) :
    Attains (pure result : AttemptM τ α) post := by
  rintro world _ ⟨⟩
  exact holds

theorem throw (error : ResolutionError) : Attains (throw error : AttemptM τ α) post :=
  nofun

theorem bind {action : AttemptM τ β} {next : β → AttemptM τ α} {between : β → Prop}
    (first : Attains action between) (second : ∀ result, between result → Attains (next result) post) :
    Attains (action >>= next) post := by
  intro world result same
  rw [ExceptT.run_bind, StateT.run_bind] at same
  cases reached : action.run.run world with
  | mk outcome after =>
    rw [reached] at same
    cases outcome with
    | error error => cases same
    | ok middle => exact second middle (first world middle (by rw [reached])) after result same

end Attains

namespace Gives

variable {post : α → Prop}

protected theorem pure {result : α} (holds : post result) : Gives (pure result : ReadM τ α) post :=
  fun _ _ => holds

theorem bind {action : ReadM τ β} {next : β → ReadM τ α} {between : β → Prop}
    (first : Gives action between) (second : ∀ result, between result → Gives (next result) post) :
    Gives (action >>= next) post :=
  fun taken world => second _ (first taken world) _ _

theorem complaining {part depth : Nat} {error : ResolutionError} {next : Unit → ReadM τ α}
    (gives : Gives (next ()) post) : Gives (complain part depth error >>= next) post :=
  fun _ world => gives _ world

/-- An attempt in the course of some work. -/
theorem attempt {action : AttemptM τ β} {next : Except ResolutionError β → ReadM τ α}
    {between : β → Prop} (first : Attains action between)
    (second : ∀ result, between result → Gives (next (.ok result)) post)
    (otherwise : ∀ error, Gives (next (.error error)) post) :
    Gives (liftM action.run >>= next) post := by
  intro taken world
  change post (((next (action.run.run world).1).run taken).run (action.run.run world).2).1.1
  cases reached : (action.run.run world).1 with
  | error error => exact otherwise error _ _
  | ok result => exact second result (first world result reached) _ _

end Gives

/-! ## What values settle to -/

section

variable {environment : Environment τ} {config : Config}

theorem attains_invoked (yields : environment.Yields sort) (computation : Deferred) :
    Attains (invoked environment computation) (·.Proper sort) := by
  intro world value same
  rw [run_invoked] at same
  cases reply : (environment.invoke computation world).1.outcome with
  | error fault => simp [reply, Except.mapError] at same
  | ok result =>
    simp only [reply, Except.mapError, Except.ok.injEq] at same
    subst same
    exact yields computation world _ reply

theorem attains_settled (yields : environment.Yields sort) (left : Nat) {value : Value}
    (proper : value.Proper sort) : Attains (settled environment config left value)
      fun result => result.Proper sort ∧ result.shape ≠ .deferred := by
  induction left generalizing value with
  | zero =>
    cases value with
    | deferred computation => exact .throw _
    | _ => exact .pure ⟨proper, nofun⟩
  | succ left ih =>
    cases value with
    | deferred computation =>
      exact .bind (attains_invoked yields computation) fun value proper => ih proper
    | _ => exact .pure ⟨proper, nofun⟩

/-- No attribute is given a deferred value. -/
theorem attains_settledDeep (yields : environment.Yields sort) (levels : Nat) {value : Value}
    (proper : value.Proper sort) :
    Attains (settledDeep environment config levels value) (·.shape ≠ .deferred) := by
  have any (action : AttemptM τ (List Value)) : Attains action fun _ => True := fun _ _ _ => trivial
  unfold settledDeep
  refine .bind (attains_settled yields _ proper) fun value settled => ?_
  obtain ⟨-, shape⟩ := settled
  cases value with
  | items values =>
    cases levels with
    | zero => exact .throw _
    | succ levels => exact .bind (any _) fun values _ => .pure (by simp [Value.shape])
  | _ => exact .pure shape

namespace Settling

theorem gives_attributeValue (yields : environment.Yields sort) (part depth : Nat) {value : Value}
    (proper : value.Proper sort) :
    Gives (attributeValue environment config part depth value) (·.shape ≠ .deferred) := by
  unfold attributeValue
  refine .attempt (attains_settledDeep yields _ proper) (fun value shape => ?_) fun error => ?_
  · dsimp only
    split
    · exact .complaining (.pure shape)
    · exact .pure shape
  · exact .complaining (.pure nofun)

/-- What is read for values of anchors is settled. -/
def GivesSettled (sort : Template → Prop) (content : Nat → Value → ReadM τ Value) : Prop :=
  ∀ (part : Nat) {value : Value}, value.Proper sort →
    Gives (content part value) fun result => ∀ path, result.SettledFor sort (.node path)

theorem gives_parts {content : Nat → Value → ReadM τ Value}
    (yields : environment.Yields sort) (gives : GivesSettled sort content)
    (depth index : Nat) (list : List Part) {values : List Value}
    (proper : ∀ value ∈ values, value.Proper sort) :
    Gives (parts environment config content depth index list values) (AllSettled sort list) := by
  induction list generalizing index values with
  | nil => exact fun _ _ => nofun
  | cons first rest ih =>
    cases values with
    | nil =>
      rw [parts_nil]
      exact .pure nofun
    | cons value values =>
      obtain ⟨here, behind⟩ := List.forall_mem_cons.mp proper
      have settles : Gives (part environment config content depth index first value)
          (·.SettledFor sort first) :=
        match first with
        | .attribute own => fun taken world =>
          .bound (gives_attributeValue yields index depth here taken world)
        | .node path => fun taken world => gives index here taken world path
      rw [parts_cons]
      exact .bind settles fun result own =>
        .bind (ih (index + 1) behind) fun others more => .pure (.cons own more)

theorem gives_items {content : Value → ReadM τ Value} {post : Value → Prop} {values : List Value}
    (each : ∀ value ∈ values, Gives (content value) post) :
    Gives (items content values) fun results => ∀ result ∈ results, post result := by
  induction values with
  | nil => exact .pure nofun
  | cons value values ih =>
    obtain ⟨here, behind⟩ := List.forall_mem_cons.mp each
    exact .bind here fun result own =>
      .bind (ih behind) fun others more => .pure (List.forall_mem_cons.mpr ⟨own, more⟩)

theorem gives_content (yields : environment.Yields sort) (room : Nat) :
    GivesSettled sort (content environment config room) := by
  induction room with
  | zero => exact fun part value _ => .complaining (.pure fun path => .primitive rfl)
  | succ room ih =>
    intro part value proper
    unfold content
    refine .attempt (attains_settled yields _ proper) (fun result settled => ?_)
      fun error => .complaining (.pure fun path => .primitive rfl)
    obtain ⟨proper, shape⟩ := settled
    cases proper with
    | primitive primitive =>
      cases result <;> first | exact .pure fun path => .primitive rfl | cases primitive
    | template fits count inside =>
      dsimp only
      rw [map_eq_pure_bind]
      exact .bind (gives_parts yields ih _ 0 _ inside) fun values settled =>
        .pure fun path => .template fits settled
    | items inside =>
      dsimp only
      rw [map_eq_pure_bind]
      exact .bind (gives_items fun value member => ih part (inside value member))
        fun values settled => .pure fun path => .items fun value member => settled value member path
    | deferred computation => exact absurd rfl shape

end Settling

end

/-! ## The same again -/

/-- In stable states, computations of a kind always have the same outcome, and the states go on to be
stable. -/
structure Environment.Repeats (environment : Environment τ) (kind : Deferred → Prop)
    (stable : τ → Prop) : Prop where
  closed : environment.Closed kind
  outcome : ∀ computation, kind computation → ∀ world world', stable world → stable world' →
    (environment.invoke computation world).1.outcome =
      (environment.invoke computation world').1.outcome
  next : ∀ computation, kind computation → ∀ world, stable world →
    stable (environment.invoke computation world).2

theorem Environment.Repeats.respects {environment : Environment τ} {kind : Deferred → Prop}
    {stable : τ → Prop} (repeats : environment.Repeats kind stable) :
    environment.Respects kind fun world world' => stable world ∧ stable world' where
  closed := repeats.closed
  outcome computation holds world world' agree :=
    repeats.outcome computation holds world world' agree.1 agree.2
  next computation holds world world' agree :=
    ⟨repeats.next computation holds world agree.1, repeats.next computation holds world' agree.2⟩

/-- An environment whose computations yield the same each time. -/
def Environment.steadfast : Environment τ where
  invoke _ world := (⟨.ok (.text "again"), []⟩, world)

theorem Environment.yields_steadfast : (steadfast : Environment τ).Yields sort := by
  rintro computation world _ ⟨⟩
  exact .primitive rfl

theorem Environment.repeats_steadfast :
    (steadfast : Environment τ).Repeats (fun _ => True) fun _ => True where
  closed := by
    rintro computation - world _ ⟨⟩
    exact .primitive rfl
  outcome _ _ _ _ _ _ := rfl
  next _ _ _ _ := trivial

/-- What a grove looks like in a document tells the cells of its nodes. -/
theorem Grove.Bears.cell?_eq {document after : Document} {parent : Option NodeId} {grove : Grove}
    (bears : grove.Bears document parent) (also : grove.Bears after parent) :
    ∀ node ∈ grove.nodes, after.cell? node = document.cell? node := by
  induction grove generalizing parent with
  | nil => nofun
  | cons first data below rest ihBelow ihRest =>
    obtain ⟨cell, inside, behind⟩ := bears
    obtain ⟨cell', inside', behind'⟩ := also
    intro node member
    rw [Grove.nodes_cons, List.mem_cons, List.mem_append] at member
    obtain rfl | member | member := member
    · rw [cell, cell']
    · exact ihBelow inside inside' node member
    · exact ihRest behind behind' node member

/-- A grove that has been put in place of itself, without any new nodes, leaves the nodes alone. -/
theorem Tilled.cells_eq {place : Place} {document after : Document} {grove : Grove}
    {deeds : List Mutation} (tilled : Tilled place document grove document.size deeds after grove)
    (site : Site document place grove) :
    after.cells = document.cells := by
  have same (node : NodeId) (known : document.Has node) :
      after.cell? node = document.cell? node := by
    by_cases concerned : node = place.parent ∨ node ∈ grove.nodes
    · obtain rfl | own := concerned
      · rw [tilled.site.cell, site.cell]
      · exact site.bears.cell?_eq tilled.site.bears node own
    · exact tilled.regrown.moves.kept node known concerned
  have size : after.cells.size = document.cells.size := tilled.size
  refine Array.ext size fun index _ inside => ?_
  have here := same ⟨index⟩ inside
  simp only [Document.cell?] at here
  simpa [size, inside] using here

namespace Renderer

theorem steady_settle {related : τ → τ → Prop} {environment : Environment τ}
    {kind : Deferred → Prop} (respects : environment.Respects kind related) (config : Config)
    (template : Template) {values : List Value} (invokes : ∀ value ∈ values, value.Invokes kind) :
    Steady related (settle environment config template values) :=
  Settling.steady_parts respects (Settling.steady_content respects _) 0 0 _ invokes

theorem gives_settle {environment : Environment τ} (yields : environment.Yields sort)
    (config : Config) (template : Template) {values : List Value}
    (proper : ∀ value ∈ values, value.Proper sort) :
    Gives (settle environment config template values) (AllSettled sort template.blueprint.parts) :=
  Settling.gives_parts yields (Settling.gives_content yields _) 0 0 _ proper

/-- The second of two calls has reported the same, and changed nothing but to set attributes again
that are so already. -/
structure Idle (assigned : List Assignment) (first second : RenderReport × Renderer σ × σ) : Prop where
  report : second.1 = first.1
  instances : second.2.1.instances = first.2.1.instances
  cells : second.2.1.stage.document.cells = first.2.1.stage.document.cells
  mutations : second.2.1.stage.document.mutations.toList =
    first.2.1.stage.document.mutations.toList ++ resets assigned
  stands : ∀ entry ∈ assigned, entry.Stands first.2.1.stage.document
  silent : (∀ entry ∈ assigned, entry.value.isPrimitive) →
    second.2.1.stage.document.mutations = first.2.1.stage.document.mutations

/-- A call for the template of a bed that the renderer holds in a container tends this bed. -/
theorem Holding.exists_tended_again {config : Config} {renderer : Renderer σ}
    (holding : renderer.Holding Instance.Sown config) {layout : Template → Stencil}
    (laid : Layout sort layout) {container : NodeId} {template : Template} {bed : Bed}
    (held : renderer.instance? container = some (bed.instance template))
    (spread : template.blueprint = bed.stencil.blueprint) (sound : bed.Sound) (worn : bed.Worn)
    (dwells : Dwells renderer.stage.document container bed.grove) {environment : Environment σ}
    (yields : environment.Yields sort) (sorted : sort template) (world : σ) :
    ∃ cell, Site renderer.stage.document (.vacated container cell) bed.grove ∧
      ∀ values : List Value, (∀ value ∈ values, value.Proper sort) →
        let read : (List Value × Array Diagnostic) × σ :=
          ((settle environment config template values).run #[]).run world
        renderer.Answers container (.vacated container cell) template bed renderer.stage.document
          (bed.tend (Plot.tend layout (config.depthLimit + 1)) container read.1.1
            renderer.stage.document.size)
          read.1.2 read.2 (renderer.render environment container ⟨template, values⟩ world) := by
  have free : Open renderer.stage.document container (renderer.instance? container) (some bed)
      (· ∈ bed.grove.nodes) := by
    rw [held]
    exact .sown spread rfl sound worn dwells
  obtain ⟨cell, found⟩ := free.has.exists_cell?
  obtain ⟨other, document, prepared, tends⟩ :=
    holding.exists_tended laid free found yields sorted world
  obtain ⟨same, -, own⟩ := prepared.kept _ held rfl
  cases own
  subst same
  exact ⟨cell, prepared.site cell found, tends⟩

/-- A call that tends a bed at rest with what it rests at, and reports what the call before it has
reported, is idle. -/
theorem Answers.idle {renderer : Renderer σ} {container : NodeId} {place place' : Place}
    {template : Template} {bed : Bed} {document : Document} {harvest : Harvest Bed}
    {failures : Array Diagnostic} {state state' : σ} {first second : RenderReport × Renderer σ × σ}
    (answers : renderer.Answers container place template bed document harvest failures state first)
    {update : PlotUpdate} {settled : List Value}
    (rests : Bed.Rests σ update container harvest.result settled)
    (site : Site first.2.1.stage.document place' harvest.result.grove)
    (answers' : first.2.1.Answers container place' template harvest.result first.2.1.stage.document
      (harvest.result.tend update container settled first.2.1.stage.document.size) failures state'
      second) : Idle ((harvest.result.instance template : Instance σ).assigned settled) first second := by
  rw [rests.again] at answers'
  have still := answers'.tended
  have mutations := still.tilled.logs.mutations
  constructor
  case report => exact congrArg RenderReport.mk (answers'.failures.trans answers.failures.symm)
  case instances =>
    have before : first.2.1.instances = _ := congrArg Renderer.instances answers.tended.remembered
    have after : second.2.1.instances = _ := congrArg Renderer.instances still.remembered
    rw [after, before]
    simp [without]
  case cells => exact still.tilled.cells_eq site
  case mutations => exact mutations
  case stands => exact rests.stands _ _ site.bears
  case silent =>
    intro primitive
    have none : resets ((harvest.result.instance template : Instance σ).assigned settled) = [] := by
      simpa [resets, List.filter_eq_nil_iff] using primitive
    rw [show resets (Binding.assigned _ _) = [] from none, List.append_nil] at mutations
    exact Array.toList_inj.mp mutations

/-- Rendering a result once more into the same container changes nothing, whatever the renderer has
done before.  Attributes that have been given a list or a template are set again. -/
theorem render_again {config : Config} {renderer : Renderer σ} (reached : renderer.Reached config)
    {container : NodeId} (has : renderer.stage.document.Has container)
    (apart : renderer.Apart container) {environment : Environment σ}
    (yields : environment.Yields Template.Standard) {kind : Deferred → Prop} {stable : σ → Prop}
    (repeats : environment.Repeats kind stable) {template : Template} {values : List Value}
    (proper : (Value.template template values).Proper Template.Standard)
    (invokes : ∀ value ∈ values, value.Invokes kind) {world world' : σ} (start : stable world)
    (later : stable world') :
    let first := renderer.render environment container ⟨template, values⟩ world
    let second := first.2.1.render environment container ⟨template, values⟩ world'
    let settled := (((settle environment config template values).run #[]).run world).1.1
    ∃ inner, first.2.1.instance? container = some inner ∧ Idle (inner.assigned settled) first second := by
  intro first second settled
  obtain ⟨layout, laid⟩ :=
    exists_layout fun template (standard : template.Standard) => standard.compiled
  have holding := reached.arises.holding laid
  have holding' : first.2.1.Holding Instance.Sown config :=
    (reached.render has apart yields proper world).arises.holding laid
  cases proper with
  | primitive shape => cases shape
  | template standard count inside =>
  -- The first call tends a bed in the container.
  obtain ⟨_, owned, free, -⟩ := holding.exists_open has
  obtain ⟨cell, found⟩ := has.exists_cell?
  obtain ⟨bed, document, prepared, tends⟩ :=
    holding.exists_tended laid free found yields standard world
  have answers := tends values inside
  have tended := answers.tended
  have sown : template.blueprint = (bed.tend (Plot.tend layout (config.depthLimit + 1)) container
      settled document.size).result.stencil.blueprint :=
    prepared.laid.trans (congrArg _ tended.stencil.symm)
  -- The second call reads the same, and finds that bed.
  obtain ⟨cell', site, tends'⟩ := holding'.exists_tended_again laid tended.instance?_self sown
    tended.sound (prepared.worn.tend ..) ⟨_, _, tended.tilled.site⟩ yields standard world'
  have same : (((settle environment config template values).run #[]).run world').1 =
      (((settle environment config template values).run #[]).run world).1 := by
    obtain ⟨_, failures, _, _, read, read', -⟩ :=
      steady_settle repeats.respects config template invokes world world' #[] #[] ⟨start, later⟩
    rw [read, read']
  have answers' := tends' values inside
  dsimp only at answers'
  rw [same] at answers'
  -- What the first call has left is at rest.
  have settles : AllSettled Template.Standard (bed.stencil.partsAt [] 0) settled := by
    have parts := congrArg Blueprint.parts prepared.laid
    rw [← show _ = bed.stencil.partsAt [] 0 from parts]
    exact gives_settle yields config template inside #[] world
  have rests : Bed.Rests σ (Plot.tend layout (config.depthLimit + 1)) container _ settled :=
    Bed.rests_tend (Plot.settles_tend laid (fun _ standard _ => standard.distinct) _)
      prepared.planted.sound (standard.distinct prepared.laid) settles container document.size
  exact ⟨_, tended.instance?_self, answers.idle rests site answers'⟩

/-- A list in an attribute is set again, next to a computation that yields the same each time. -/
theorem render_again_seasoned :
    let environment : Environment (Nat × List Deferred) := .steadfast
    let values := [.items [.text "a", .text "b"], .deferred ⟨0⟩]
    let first := seasoned.render environment ⟨0⟩ ⟨Template.lettered, values⟩ (2, [])
    let second := first.2.1.render environment ⟨0⟩ ⟨Template.lettered, values⟩ (3, [])
    let settled := (((settle environment {} Template.lettered values).run #[]).run (2, [])).1.1
    ∃ inner, first.2.1.instance? ⟨0⟩ = some inner ∧ Idle (inner.assigned settled) first second := by
  have has : seasoned.stage.document.Has ⟨0⟩ := by
    change 0 < seasoned.stage.document.size
    decide +kernel
  have holds : (seasoned.instance? ⟨0⟩).isSome := by decide +kernel
  have apart : seasoned.Apart ⟨0⟩ :=
    reached_seasoned.kept.apart_of_holds (Option.isSome_iff_exists.mp holds)
  have text (data : String) : (Value.text data).Proper Template.Standard := .primitive rfl
  have list : (Value.items [.text "a", .text "b"]).Proper Template.Standard :=
    .items (List.forall_mem_cons.mpr ⟨text "a", List.forall_mem_singleton.mpr (text "b")⟩)
  have inert : (Value.items [.text "a", .text "b"]).Invokes fun _ => True :=
    .items (List.forall_mem_cons.mpr ⟨.primitive rfl, List.forall_mem_singleton.mpr (.primitive rfl)⟩)
  exact render_again reached_seasoned has apart Environment.yields_steadfast
    Environment.repeats_steadfast (Template.proper_lettered list (.deferred ⟨0⟩))
    (List.forall_mem_cons.mpr ⟨inert, List.forall_mem_singleton.mpr (.deferred trivial)⟩) trivial
    trivial

end Renderer

end LiveMarkup
