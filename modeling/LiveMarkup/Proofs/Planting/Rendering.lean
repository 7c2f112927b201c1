import LiveMarkup.Proofs.Holding
import LiveMarkup.Proofs.Planting.Updating

/-! # Rendering comes to tending

A call of a renderer prepares a bed in the container, whatever the values are: the one that is there,
if it is of the same template, or else a new one.  Then the bed is tended. -/

namespace LiveMarkup

open Document Markup

variable {σ τ : Type} {sort : Template → Prop} {related : σ → τ → Prop} {setting : Setting σ}
  {environment : Environment τ} {document : Document} {container : NodeId}
  {previous : Option (Instance σ)} {old : Option Bed} {owned : NodeId → Prop}

/-- An instance is that of a sound bed with the given grove. -/
def Instance.Sown (inner : Instance σ) (grove : Grove) : Prop :=
  ∃ bed : Bed, inner.template.blueprint = bed.stencil.blueprint ∧
    inner = bed.instance inner.template ∧ bed.grove = grove ∧ bed.Sound ∧ bed.Worn

theorem Instance.detaches_sown : Detaches (@Instance.Sown σ) := by
  intro inner grove sown document place site
  obtain ⟨bed, laid, same, rfl, sound, -⟩ := sown
  rw [same]
  exact (sound.tills_detach laid site).mono fun _ after detached => detached.regrown

/-- A container has exactly the nodes of a sound bed. -/
structure Planted (document : Document) (container : NodeId) (bed : Bed) : Prop where
  sound : bed.Sound
  dwells : Dwells document container bed.grove

/-- Whether a container can be rendered into, which has a bed if an instance lives there.  The given
nodes are those inside of it that rendering may change. -/
inductive Open (document : Document) (container : NodeId) :
    Option (Instance σ) → Option Bed → (NodeId → Prop) → Prop where
  | bare (has : document.Has container) (sound : document.Sound) :
      Open document container none none (· ∈ document.children container)
  | sown {inner : Instance σ} {bed : Bed} (laid : inner.template.blueprint = bed.stencil.blueprint)
      (same : inner = bed.instance inner.template) (sound : bed.Sound) (worn : bed.Worn)
      (dwells : Dwells document container bed.grove) :
      Open document container (some inner) (some bed) (· ∈ bed.grove.nodes)

/-- A container that has a grove is not its own child. -/
theorem Site.vacated {data : NodeData} {outer : Option NodeId} {grove : Grove}
    (site : Site document (.inside container data outer) grove) {cell : Cell}
    (found : document.cell? container = some cell) :
    Place.vacated container cell = .inside container data outer := by
  have same : cell = ⟨data, outer, [] ++ grove.roots ++ []⟩ :=
    Option.some.inj (found.symm.trans site.cell)
  have apart : container ∉ grove.roots := by
    have once : (container :: ([] ++ grove.nodes ++ [])).Nodup := site.once
    rw [List.nil_append, List.append_nil, List.nodup_cons] at once
    exact fun member => once.1 (Grove.mem_nodes_of_mem_roots member)
  subst same
  simp [Place.vacated, apart]

theorem Open.performs_evict (free : Open document container previous old owned) {cell : Cell}
    (found : document.cell? container = some cell) :
    Performs (Renderer.evict container previous) document fun _ after =>
      Site after (.vacated container cell) .nil ∧
        document.Moves (fun node => node = container ∨ owned node) after := by
  cases free with
  | bare has sound => exact performs_evict_bare found sound
  | sown laid same sound worn dwells =>
    obtain ⟨data, outer, site⟩ := dwells
    rw [site.vacated found]
    exact performs_evict_housed (Instance.detaches_sown ⟨_, laid, same, rfl, sound, worn⟩ site)

theorem Open.has (free : Open document container previous old owned) : document.Has container := by
  cases free with
  | bare has sound => exact has
  | sown laid same sound worn dwells => exact dwells.has

/-- Removing children creates no nodes. -/
theorem sizes_sweep (container : NodeId) (count : Nat) (document : Document) :
    Performs (Renderer.sweep container count) document fun _ after =>
      after.size = document.size := by
  induction count generalizing document with
  | zero => exact .pure rfl
  | succ count ih =>
    unfold Renderer.sweep
    refine .get fun stage _ _ => ?_
    cases stage.firstChild container with
    | none => exact .pure rfl
    | some child =>
      refine (performs_removal document child).bind fun _ between removed => ?_
      have size : between.size = document.size := by rw [removed]; simp
      refine .get fun later _ _ => ?_
      split
      · exact .note size
      · exact (ih between).mono fun _ after same => same.trans size

/-- Emptying a container creates no nodes. -/
theorem Open.sizes_evict (free : Open document container previous old owned) :
    Performs (Renderer.evict container previous) document fun _ after =>
      after.size = document.size := by
  have swept (between : Document) (size : between.size = document.size) :
      Performs (do Renderer.sweep container ((← get).document.children container).length) between
        fun _ after => after.size = document.size :=
    .get fun _ _ _ => (sizes_sweep container _ between).mono fun _ after same => same.trans size
  unfold Renderer.evict
  cases free with
  | bare has sound => exact swept document rfl
  | sown laid same sound worn dwells =>
    obtain ⟨data, outer, site⟩ := dwells
    rw [same]
    refine .noting ((sound.tills_detach laid site).bind fun _ between detached => ?_)
    exact swept between detached.size

/-- What has been prepared in a container: the bed that is there, if it is of the template, or else a
new one of the stencil. -/
structure Prepared (container : NodeId) (previous : Option (Instance σ)) (old : Option Bed)
    (owned : NodeId → Prop) (template : Template) (stencil : Stencil) (document : Document)
    (bed : Bed) (after : Document) : Prop where
  laid : template.blueprint = bed.stencil.blueprint
  planted : Planted after container bed
  worn : bed.Worn
  /-- Nothing else of the container changes. -/
  site : ∀ cell, document.cell? container = some cell → Site after (.vacated container cell) bed.grove
  moves : document.Moves (fun node => node = container ∨ owned node) after
  fresh : ∀ node ∈ bed.grove.nodes, owned node ∨ ¬ document.Has node
  kept : ∀ inner, previous = some inner → inner.template = template →
    after = document ∧ inner = bed.instance template ∧ old = some bed
  sown : (∀ inner, previous = some inner → inner.template ≠ template) →
    bed = (stencil.sow none [] 0 document.size).result ∧
      after.size = (stencil.sow none [] 0 document.size).next

namespace Prepared

variable {template : Template} {stencil : Stencil} {bed : Bed} {between after : Document}
  {data : NodeData} {outer : Option NodeId} {grown : Grove}

/-- What is prepared and then changed concerns the container and nodes inside of it. -/
theorem moves_regrown
    (prepared : Prepared container previous old owned template stencil document bed between)
    (regrown : Regrown (.inside container data outer) between bed.grove after grown) :
    document.Moves (fun node => node = container ∨ owned node) after :=
  prepared.moves.trans regrown.moves fun node known own =>
    own.imp_right fun member => (prepared.fresh node member).resolve_right (not_not_intro known)

theorem fresh_regrown
    (prepared : Prepared container previous old owned template stencil document bed between)
    (regrown : Regrown (.inside container data outer) between bed.grove after grown) :
    ∀ node ∈ grown.nodes, owned node ∨ ¬ document.Has node := by
  intro node member
  obtain old | new := regrown.fresh node member
  · exact prepared.fresh node old
  · exact .inr fun has => new (prepared.moves.has has)

end Prepared

/-- The bed in a container is there already, or it is sown after the container has been emptied. -/
theorem simulates_prepare (plain : setting.strategies = []) {template : Template}
    {stencil : Stencil} (layout : template.blueprint = stencil.blueprint)
    (free : Open document container previous old owned) :
    Simulates related (Renderer.prepare setting container previous template)
      (pure () : ReadM τ Unit) document fun inner _ after => ∃ bed : Bed,
        inner = some (bed.instance template) ∧
          Prepared container previous old owned template stencil document bed after := by
  unfold Renderer.prepare
  -- An instance of the same template is kept, any other one is taken out before a new one is made.
  cases kept : previous.filter (·.template = template) with
  | some inner =>
    cases free with
    | bare => cases kept
    | sown laid same sound worn dwells =>
      simp only [Option.filter_some, Option.ite_none_right_eq_some, Option.some.injEq,
        decide_eq_true_eq] at kept
      obtain ⟨rfl, rfl⟩ := kept
      refine .noting (.pure ⟨_, congrArg some same, laid, ⟨sound, dwells⟩, worn, ?_, .refl _ _,
        fun _ => .inl, ?_, fun other => absurd rfl (other _ rfl)⟩)
      · obtain ⟨data, outer, site⟩ := dwells
        intro cell found
        rwa [site.vacated found]
      · rintro _ ⟨⟩ -
        exact ⟨rfl, same, rfl⟩
  | none =>
    have other : ∀ inner, previous = some inner → inner.template ≠ template := by
      rintro inner rfl same
      simp [same] at kept
    dsimp only
    rw [plain]
    obtain ⟨cell, found⟩ := free.has.exists_cell?
    refine .perform ((free.performs_evict found).and free.sizes_evict)
      fun _ emptied ⟨⟨site, moved⟩, size⟩ => ?_
    refine .perform (raises_make emptied layout) fun result made ⟨known, raised⟩ => ?_
    subst known
    dsimp only
    have roots := stencil.roots_sow none [] 0 emptied.size
    have own : ((stencil.sow none [] 0 emptied.size).result.instance template : Instance σ).roots =
        (stencil.sow none [] 0 emptied.size).result.grove.roots := roots.symm
    rw [forM_liftM, own]
    refine .perform ((performs_insertAll (raised.added.site site) (raised.added.loose site)).and
      (logs_insertAll made _ _ none)) fun _ placed ⟨⟨inserted, putIn⟩, logs⟩ => .pure ?_
    have grown := Regrown.of_insert raised.added.moves raised.added.fresh inserted putIn
    refine ⟨_, rfl, ?_, ⟨stencil.sound_sow none [] 0 _, _, _, inserted⟩,
      Bed.worn_sow stencil none [] 0 _, ?_, ?_, ?_, ?_, ?_⟩
    · rw [Stencil.stencil_sow, layout]
    · intro _ same
      obtain rfl := Option.some.inj (found.symm.trans same)
      exact inserted
    · refine moved.trans grown.moves fun node _ own => .inl ?_
      exact own.resolve_right List.not_mem_nil
    · exact fun node member => .inr fun has => raised.added.fresh node member (moved.has has)
    · exact fun inner held same => absurd same (other inner held)
    · intro _
      rw [← size]
      exact ⟨rfl, logs.size.trans raised.logs.size⟩

namespace Renderer

variable {renderer : Renderer σ}

/-- What a call does after it has prepared an instance: it updates the instance, and remembers it. -/
def renderPrepared (renderer : Renderer σ) (environment : Environment σ) (container : NodeId)
    (inner : Instance σ) (stage : Stage) (values : List Value) (world : σ) :
    RenderReport × Renderer σ × σ :=
  let setting : Setting σ := ⟨environment, renderer.config, renderer.strategies⟩
  let update := Outlet.update setting (renderer.config.depthLimit + 1)
  let (((updated, diagnostics), world), stage) :=
    inner.update setting update 0 values |>.run #[] |>.run world |>.run stage
  ({ diagnostics := diagnostics.toList },
    { renderer with stage, instances := (container, updated) :: without renderer.instances container },
    world)

/-- A call of a renderer prepares a bed, whatever the values are. -/
theorem exists_prepared (plain : renderer.strategies = []) (whole : renderer.stage.shortcomings = {})
    {template : Template} {stencil : Stencil} (layout : template.blueprint = stencil.blueprint)
    (free : Open renderer.stage.document container (renderer.instance? container) old owned)
    (environment : Environment σ) (world : σ) :
    ∃ (bed : Bed) (stage : Stage), stage.shortcomings = {} ∧
      Prepared container (renderer.instance? container) old owned template stencil
        renderer.stage.document bed stage.document ∧
      ∀ values : List Value, renderer.render environment container ⟨template, values⟩ world =
        renderer.renderPrepared environment container (bed.instance template) stage values world := by
  let setting : Setting σ := ⟨environment, renderer.config, renderer.strategies⟩
  let noted : Stage := { renderer.stage with journal := renderer.stage.journal.push .rendering }
  have plain : setting.strategies = [] := plain
  have prepares : Simulates Eq (prepare setting container (renderer.instance? container) template)
      (pure () : ReadM σ Unit) renderer.stage.document fun inner _ after => ∃ bed : Bed,
        inner = some (bed.instance template) ∧ Prepared container (renderer.instance? container)
          old owned template stencil renderer.stage.document bed after :=
    simulates_prepare plain layout free
  obtain ⟨⟨⟨⟨inner, reports⟩, state⟩, after⟩, ran⟩ : ∃ outcome,
      (((prepare setting container (renderer.instance? container) template).run #[]).run world).run
        noted = (pure outcome : Id _) := ⟨_, rfl⟩
  have prepares := prepares noted world world #[] #[] rfl whole rfl rfl
  rw [ran] at prepares
  obtain ⟨none, agree, wholeAfter, bed, same, prepared⟩ := prepares
  obtain rfl : reports = #[] := none
  obtain rfl : state = world := agree
  obtain rfl : inner = some (bed.instance template) := same
  refine ⟨bed, after, wholeAfter, prepared, fun values => ?_⟩
  have noting : (((liftM (Stage.note .rendering) : RenderM σ Unit).run #[]).run state).run
      renderer.stage = (pure ((((), #[]), state), noted) : Id _) := rfl
  unfold render renderInto
  simp only [StateT.run_bind, noting, pure_bind, setting, ran]
  rfl

/-- What the values of a result settle to. -/
def settle (environment : Environment τ) (config : Config) (template : Template)
    (values : List Value) : ReadM τ (List Value) :=
  Settling.parts environment config (Settling.content environment config (config.depthLimit + 1)) 0
    0 template.blueprint.parts values

/-- The bed below a container has been tended, and the renderer remembers what has come of it. -/
structure Tended (renderer : Renderer σ) (container : NodeId) (place : Place) (template : Template)
    (bed : Bed) (document : Document) (harvest : Harvest Bed) (after : Renderer σ) : Prop where
  whole : after.stage.shortcomings = {}
  sound : harvest.result.Sound
  stencil : harvest.result.stencil = bed.stencil
  remembered : after = { renderer with
    stage := after.stage
    instances := (container, harvest.result.instance template) ::
      without renderer.instances container }
  tilled : Tilled place document bed.grove harvest.next harvest.deeds after.stage.document
    harvest.result.grove

/-- A call has reported the given failures, left the environment in the given state, and tended a
bed. -/
structure Answers (renderer : Renderer σ) (container : NodeId) (place : Place) (template : Template)
    (bed : Bed) (document : Document) (harvest : Harvest Bed) (failures : Array Diagnostic) (state : σ)
    (outcome : RenderReport × Renderer σ × σ) : Prop where
  failures : outcome.1.diagnostics = failures.toList
  state : outcome.2.2 = state
  tended : renderer.Tended container place template bed document harvest outcome.2.1

namespace Tended

variable {place : Place} {template : Template} {bed : Bed} {harvest : Harvest Bed}
  {after : Renderer σ}

theorem planted {data : NodeData} {outer : Option NodeId}
    (tended : renderer.Tended container (.inside container data outer) template bed document harvest
      after) : Planted after.stage.document container harvest.result :=
  ⟨tended.sound, data, outer, tended.tilled.site⟩

theorem lookup (tended : renderer.Tended container place template bed document harvest after)
    (other : NodeId) : after.instance? other =
      if other = container then some (harvest.result.instance template)
      else renderer.instance? other := by
  rw [tended.remembered]
  exact lookup_updated (some _) renderer.instances container other

theorem instance?_self
    (tended : renderer.Tended container place template bed document harvest after) :
    after.instance? container = some (harvest.result.instance template) := by
  rw [tended.lookup, if_pos rfl]

end Tended

/-- A prepared bed is tended with what the values settle to. -/
theorem renderPrepared_tended {layout : Template → Stencil} {environment : Environment σ}
    {other : Environment τ} (alike : environment.Alike sort related other)
    (plain : renderer.strategies = [])
    (laid : ∀ template, sort template → template.blueprint = (layout template).blueprint)
    {template : Template} {bed : Bed} {stage : Stage} (whole : stage.shortcomings = {})
    (blueprint : template.blueprint = bed.stencil.blueprint) (sound : bed.Sound)
    {data : NodeData} {outer : Option NodeId}
    (site : Site stage.document (.inside container data outer) bed.grove) {values : List Value}
    (proper : ∀ value ∈ values, value.Proper sort) {world : σ} {world' : τ}
    (agree : related world world') :
    let outcome :=
      renderer.renderPrepared environment container (bed.instance template) stage values world
    let read : (List Value × Array Diagnostic) × τ :=
      ((settle other renderer.config template values).run #[]).run world'
    outcome.1.diagnostics = read.1.2.toList ∧ related outcome.2.2 read.2 ∧
      renderer.Tended container (.inside container data outer) template bed stage.document
        (bed.tend (Plot.tend layout (renderer.config.depthLimit + 1)) container read.1.1
          stage.document.size) outcome.2.1 := by
  let setting : Setting σ := ⟨environment, renderer.config, renderer.strategies⟩
  have alike : setting.environment.Alike sort related other := alike
  have tends := tends_update alike plain laid (renderer.config.depthLimit + 1)
  obtain ⟨reports, agree', whole', same, yields⟩ :=
    simulates_bed_instance alike tends 0 blueprint sound proper site stage world world' #[] #[] rfl
      whole agree rfl
  refine ⟨congrArg Array.toList reports, agree', whole', yields.sound, yields.stencil, ?_,
    yields.tilled⟩
  let kept (updated : Instance σ) : Renderer σ := { renderer with
    stage := (renderer.renderPrepared environment container (bed.instance template) stage values
      world).2.1.stage
    instances := (container, updated) :: without renderer.instances container }
  exact congrArg kept same

end Renderer

end LiveMarkup
