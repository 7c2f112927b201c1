import LiveMarkup.Proofs.Planting.Upkeep

/-! # Nothing is left behind

Whatever a renderer has rendered and released, and whatever modest strategies it has been given on the
way, every container that it holds has exactly the nodes of a bed (`Emerges.furnished`).  So detaching
the instance there empties the container, and neither releasing it nor rendering another template
leaves a node of the old output in it (`leaves_nothing`).

A node that detaching takes out of its parent is put nowhere else (`Instance.sheds_detach`). -/

namespace LiveMarkup

open Document Markup

variable {σ : Type} {sort : Template → Prop} {document between after : Document} {container : NodeId}

/-! ## Taking out -/

/-- From the first document to the second one, nodes have at most been taken out of their parents. -/
structure Document.Sheds (document after : Document) : Prop where
  loose : ∀ node, document.parent node = none → after.parent node = none
  stays : ∀ parent, ∀ node ∈ document.children parent,
    after.parent node = none ∨ node ∈ after.children parent

namespace Document.Sheds

theorem refl (document : Document) : document.Sheds document :=
  ⟨fun _ => id, fun _ _ => .inr⟩

theorem trans (first : document.Sheds between) (second : between.Sheds after) :
    document.Sheds after where
  loose node free := second.loose node (first.loose node free)
  stays parent node child := by
    obtain free | child := first.stays parent node child
    · exact .inl (second.loose node free)
    · exact second.stays parent node child

theorem congr (parents : ∀ node, after.parent node = document.parent node)
    (children : ∀ node, after.children node = document.children node) : document.Sheds after :=
  ⟨fun node free => (parents node).trans free, fun parent _ child => .inr (children parent ▸ child)⟩

theorem detach (document : Document) (node : NodeId) : document.Sheds (document.detach node) := by
  have freed : (document.detach node).parent node = none := by
    cases found : document.cell? node with
    | none => simp [Document.detach, Document.parent, found]
    | some cell =>
      unfold Document.detach
      split
      · rw [parent_editChildren, parent_setParent_self (has_of_cell? found)]
      · assumption
  constructor
  case loose =>
    intro other free
    by_cases same : other = node
    · exact same ▸ freed
    · exact (parent_detach_of_ne same).trans free
  case stays =>
    intro parent other child
    by_cases same : other = node
    · exact .inl (same ▸ freed)
    · refine .inr ?_
      rw [children_detach]
      split
      · simp [child, same]
      · exact child

theorem setText (document : Document) (node : NodeId) (data : String) :
    document.Sheds (document.setText node data) := by
  unfold Document.setText
  split
  · exact .congr (by simp) (by simp)
  · exact .congr (by simp) (by simp)
  · exact .refl document

end Document.Sheds

theorem sheds_remove (document : Document) (node : NodeId) :
    Performs (Stage.remove node) document fun _ after => document.Sheds after := by
  refine (performs_removal document node).mono fun _ after same => ?_
  subst same
  exact (Sheds.detach document node).trans (.congr (fun _ => rfl) fun _ => rfl)

theorem sheds_removeAll (document : Document) (nodes : List NodeId) :
    Performs (nodes.forM Stage.remove) document fun _ after => document.Sheds after := by
  induction nodes generalizing document with
  | nil => exact .pure (.refl document)
  | cons node nodes ih =>
    refine (sheds_remove document node).bind fun _ between first => ?_
    exact (ih between).mono fun _ after second => first.trans second

theorem sheds_setText (document : Document) (node : NodeId) (data : String) :
    Performs (Stage.setText node data) document fun _ after => document.Sheds after := by
  unfold Stage.setText
  refine .get fun stage same _ => ?_
  subst same
  split
  · exact .note (.refl _)
  · exact .edit (.setText _ _ _)

mutual

/-- Detaching an instance does nothing but take nodes out. -/
theorem Instance.sheds_detach : ∀ (inner : Instance σ) (document : Document),
    Performs inner.detach document fun _ after => document.Sheds after
  | .mk template roots bindings, document => by
    rw [Instance.detach]
    refine (Instance.sheds_clearRoots bindings _ document).bind fun _ between first => ?_
    exact (sheds_removeAll between roots).mono fun _ after second => first.trans second

theorem Instance.sheds_clearRoots : ∀ (bindings : List (Binding σ)) (parts : List Part)
    (document : Document), Performs (Instance.clearRoots bindings parts) document fun _ after =>
      document.Sheds after
  | [], _, document => .pure (.refl document)
  | .attribute _ :: _, [], document => .pure (.refl document)
  | .outlet _ :: _, [], document => .pure (.refl document)
  | .attribute _ :: bindings, _ :: parts, document =>
    Instance.sheds_clearRoots bindings parts document
  | .outlet outlet :: bindings, part :: parts, document => by
    rw [Instance.clearRoots]
    split
    · refine (outlet.sheds_clear document).bind fun _ between first => ?_
      exact (Instance.sheds_clearRoots bindings parts between).mono fun _ after second =>
        first.trans second
    · exact Instance.sheds_clearRoots bindings parts document

theorem Outlet.sheds_clear : ∀ (outlet : Outlet σ) (document : Document),
    Performs outlet.clear document fun _ after => document.Sheds after
  | .vacant _, document => .pure (.refl document)
  | .text anchor _, document => sheds_setText document anchor ""
  | .nested _ inner, document => inner.sheds_detach document
  | .items _ outlets, document => Outlet.sheds_dropAll outlets document

theorem Outlet.sheds_dropAll : ∀ (outlets : List (Outlet σ)) (document : Document),
    Performs (Outlet.dropAll outlets) document fun _ after => document.Sheds after
  | [], document => .pure (.refl document)
  | outlet :: rest, document => by
    rw [Outlet.dropAll]
    refine (outlet.sheds_clear document).bind fun _ between first => ?_
    refine (sheds_remove between outlet.anchor).bind fun _ later second => ?_
    exact (Outlet.sheds_dropAll rest later).mono fun _ after third =>
      (first.trans second).trans third

end

/-! ## Detaching -/

/-- A container is left without children, and what were its children are no one's. -/
structure Vacated (document : Document) (container : NodeId) (after : Document) : Prop where
  empty : after.children container = []
  loose : ∀ child ∈ document.children container, after.parent child = none

theorem Instance.detaches_backed : Detaches (@Instance.Backed σ) := by
  intro inner grove backed document place site
  obtain ⟨bed, laid, roots, backs, rfl, sound⟩ := backed
  rw [backs.detach roots]
  exact (sound.tills_detach laid site).mono fun _ after detached => detached.regrown

variable {inner : Instance σ} {grove : Grove} {data : NodeData} {outer : Option NodeId}

/-- Detaching the instance of a container leaves nothing in it. -/
theorem Instance.Backed.performs_detach (backed : inner.Backed grove)
    (site : Site document (.inside container data outer) grove) :
    Performs inner.detach document fun _ after => Vacated document container after ∧
      Regrown (.inside container data outer) document grove after .nil := by
  refine ((Instance.detaches_backed backed site).and (inner.sheds_detach document)).mono
    fun _ after ⟨regrown, sheds⟩ => ⟨?_, regrown⟩
  have empty : after.children container = [] := children_of_cell? regrown.site.cell
  refine ⟨empty, fun child member => (sheds.stays container child member).resolve_right ?_⟩
  rw [empty]
  exact List.not_mem_nil

namespace Renderer

/-- Detaching empties the container, and so evicting is nothing but detaching. -/
theorem run_evict (backed : inner.Backed grove)
    (site : Site document (.inside container data outer) grove) {stage : Stage}
    (same : stage.document = document) (whole : stage.shortcomings = {}) :
    (evict container (some inner)).run stage =
      inner.detach.run { stage with journal := stage.journal.push .instanceReplaced } := by
  let noted : Stage := { stage with journal := stage.journal.push .instanceReplaced }
  obtain ⟨-, vacated, -⟩ := backed.performs_detach site noted same whole
  have swept : (evict container (some inner)).run stage =
      (sweep container ((inner.detach.run noted).2.document.children container).length).run
        (inner.detach.run noted).2 := rfl
  rw [swept, vacated.empty]
  rfl

theorem performs_evict (backed : inner.Backed grove)
    (site : Site document (.inside container data outer) grove) :
    Performs (evict container (some inner)) document fun _ emptied =>
      Site emptied (.inside container data outer) .nil ∧ ∃ stage : Stage,
        stage.document = document ∧ stage.shortcomings = {} ∧
        emptied = (inner.detach.run stage).2.document := by
  intro stage same whole
  rw [run_evict backed site same whole]
  let noted : Stage := { stage with journal := stage.journal.push .instanceReplaced }
  obtain ⟨whole', -, detached⟩ := backed.performs_detach site noted same whole
  exact ⟨whole', detached.site, noted, same, whole, rfl⟩

/-! ## Rendering -/

section

variable {setting : Setting σ} {previous : Option (Instance σ)} {template : Template}
  {stencil : Stencil} {reached : Document → Prop}

/-- A new instance is prepared in a container that has been emptied. -/
theorem achieves_prepare (modest : ∀ strategy ∈ setting.strategies, strategy.Modest)
    (laid : template.blueprint = stencil.blueprint)
    (other : previous.filter (·.template = template) = none)
    (evicts : Performs (evict container previous) document fun _ emptied =>
      Site emptied (.inside container data outer) .nil ∧ reached emptied) :
    Achieves (prepare setting container previous template) document fun prepared after =>
      ∃ (emptied : Document) (bed : Bed) (bindings : List (Binding σ)), reached emptied ∧
        prepared = some (.mk template bed.roots bindings) ∧
        template.blueprint = bed.stencil.blueprint ∧ bed.Backs bindings ∧ bed.Sound ∧
        Regrown (.inside container data outer) emptied .nil after bed.grove := by
  unfold prepare
  rw [other]
  dsimp only
  refine .perform evicts fun _ emptied vacated => ?_
  obtain ⟨site, holds⟩ := vacated
  refine .perform (raises_make_modest modest emptied laid)
    fun result made copied => ?_
  obtain ⟨bindings, known, fits, raised⟩ := copied
  subst known
  dsimp only
  have roots := stencil.roots_sow none [] 0 emptied.size
  -- The container is empty, and so the roots of the new instance are all that it gets.
  rw [forM_liftM, Instance.roots, ← roots]
  refine .perform (performs_insertAll (raised.added.site site) (raised.added.loose site))
    fun _ placed filled => .pure ?_
  obtain ⟨inserted, putIn⟩ := filled
  refine ⟨emptied, (stencil.sow none [] 0 emptied.size).result, bindings, holds, by rw [roots], ?_,
    fits, stencil.sound_sow none [] 0 _,
    .of_insert raised.added.moves raised.added.fresh inserted putIn⟩
  rw [Stencil.stencil_sow, laid]

variable {layout : Template → Stencil} {values : List Value}

/-- A result in a new instance, in a container that is emptied first. -/
theorem achieves_renderInto (yields : setting.environment.Yields sort)
    (modest : ∀ strategy ∈ setting.strategies, strategy.Modest) (laid : Layout sort layout)
    (sorted : sort template) (proper : ∀ value ∈ values, value.Proper sort)
    (other : previous.filter (·.template = template) = none)
    (evicts : Performs (evict container previous) document fun _ emptied =>
      Site emptied (.inside container data outer) .nil ∧ reached emptied) :
    Achieves (renderInto setting container previous ⟨template, values⟩) document
      fun updated after => ∃ (emptied : Document) (inner : Instance σ) (grove : Grove),
        reached emptied ∧ updated = some inner ∧ inner.Backed grove ∧
        Regrown (.inside container data outer) emptied .nil after grove := by
  unfold renderInto
  refine .noting ((achieves_prepare modest (laid template sorted) other evicts).bind ?_)
  rintro _ placed ⟨emptied, bed, bindings, holds, rfl, blueprint, backs, sound, grown⟩
  dsimp only
  rw [map_eq_pure_bind]
  refine (achieves_instance yields (upkeeps_update yields modest laid _) 0 blueprint backs sound proper
    grown.site).bind ?_
  rintro _ after ⟨bed', bindings', rfl, blueprint', upkept⟩
  exact .pure ⟨emptied, _, bed'.grove, holds, rfl,
    ⟨bed', blueprint', rfl, upkept.backs, rfl, upkept.sound⟩, grown.trans upkept.regrown⟩

/-- A result in the instance that is there. -/
theorem achieves_renderInto_kept (yields : setting.environment.Yields sort)
    (modest : ∀ strategy ∈ setting.strategies, strategy.Modest) (laid : Layout sort layout)
    (proper : ∀ value ∈ values, value.Proper sort) (backed : inner.Backed grove)
    (site : Site document (.inside container data outer) grove) :
    Achieves (renderInto setting container (some inner) ⟨inner.template, values⟩) document
      fun updated after => ∃ (inner : Instance σ) (grown : Grove),
        updated = some inner ∧ inner.Backed grown ∧
        Regrown (.inside container data outer) document grove after grown := by
  obtain ⟨bed, blueprint, roots, backs, rfl, sound⟩ := backed
  obtain ⟨template, _, bindings⟩ := inner
  obtain rfl : _ = bed.roots := roots
  unfold renderInto prepare
  simp only [Instance.template, Option.filter_some, decide_true, if_true, bind_assoc, pure_bind]
  refine .noting (.noting ?_)
  rw [map_eq_pure_bind]
  refine (achieves_instance yields (upkeeps_update yields modest laid _) 0 blueprint backs sound proper
    site).bind ?_
  rintro _ after ⟨grown, bindings', rfl, blueprint', upkept⟩
  exact .pure ⟨_, grown.grove, rfl, ⟨grown, blueprint', rfl, upkept.backs, rfl, upkept.sound⟩,
    upkept.regrown⟩

end

/-! ## States -/

/-- The renderer without the strategies it has been given. -/
def plain (renderer : Renderer σ) : Renderer σ :=
  { renderer with strategies := [] }

/-- What a renderer remembers is there in its document, and its strategies are modest. -/
structure Furnished (config : Config) (renderer : Renderer σ) : Prop where
  holding : renderer.plain.Holding Instance.Backed config
  modest : ∀ strategy ∈ renderer.strategies, strategy.Modest

/-- A container has got an instance that is backed by a bed, and nothing else has changed than what is
inside of it. -/
def Resettled (document : Document) (container : NodeId) (owned : NodeId → Prop)
    (updated : Option (Instance σ)) (after : Document) : Prop :=
  ∃ inner grove, updated = some inner ∧ inner.Backed grove ∧ Dwells after container grove ∧
    document.Moves (fun node => node = container ∨ owned node) after ∧
    ∀ node ∈ grove.nodes, owned node ∨ ¬ document.Has node

/-- What has been emptied first and is filled then. -/
theorem resettled_of_emptied {owned : NodeId → Prop} {emptied : Document}
    (moves : document.Moves (fun node => node = container ∨ owned node) emptied)
    (backed : inner.Backed grove)
    (grown : Regrown (.inside container data outer) emptied .nil after grove) :
    Resettled document container owned (some inner) after := by
  refine ⟨inner, grove, rfl, backed, ⟨data, outer, grown.site⟩, ?_, fun node member => .inr ?_⟩
  · exact moves.trans grown.moves fun node _ own => .inl (own.resolve_right List.not_mem_nil)
  · have new := (grown.fresh node member).resolve_left List.not_mem_nil
    exact fun has => new (moves.has has)

namespace Furnished

variable {config : Config} {renderer : Renderer σ} {layout : Template → Stencil}
  {environment : Environment σ} {template : Template} {values : List Value}

theorem achieves_render (furnished : renderer.Furnished config) (laid : Layout sort layout)
    (has : renderer.stage.document.Has container) (yields : environment.Yields sort)
    (sorted : sort template) (proper : ∀ value ∈ values, value.Proper sort) :
    ∃ owned, (∀ node, owned node → renderer.stage.document.Inside container node) ∧
      Achieves (renderInto ⟨environment, renderer.config, renderer.strategies⟩ container
        (renderer.instance? container) ⟨template, values⟩) renderer.stage.document
        (Resettled renderer.stage.document container owned) := by
  obtain ⟨holding, modest⟩ := furnished
  let setting : Setting σ := ⟨environment, renderer.config, renderer.strategies⟩
  have yields : setting.environment.Yields sort := yields
  cases held : renderer.instance? container with
  | none =>
    obtain ⟨cell, found⟩ := has.exists_cell?
    refine ⟨_, fun node => .child, (achieves_renderInto yields modest laid sorted proper rfl
      (performs_evict_bare found holding.sound)).mono ?_⟩
    rintro _ after ⟨emptied, inner, grove, moves, rfl, backed, grown⟩
    exact resettled_of_emptied moves backed grown
  | some inner =>
    obtain ⟨grove, backed, dwells⟩ := holding.lives container inner held
    refine ⟨(· ∈ grove.nodes), fun node => dwells.inside_iff.mpr, ?_⟩
    obtain ⟨data, outer, site⟩ := dwells
    by_cases same : inner.template = template
    · subst same
      refine (achieves_renderInto_kept yields modest laid proper backed site).mono ?_
      rintro _ after ⟨updated, grown, rfl, backed, regrown⟩
      exact ⟨updated, grown, rfl, backed, ⟨data, outer, regrown.site⟩, regrown.moves, regrown.fresh⟩
    · have other : (some inner).filter (·.template = template) = none := by simp [same]
      refine (achieves_renderInto yields modest laid sorted proper other
        (performs_evict_housed (Instance.detaches_backed backed site))).mono ?_
      rintro _ after ⟨emptied, updated, grown, moves, rfl, backed, regrown⟩
      exact resettled_of_emptied moves backed regrown

theorem render (furnished : renderer.Furnished config) (laid : Layout sort layout)
    (has : renderer.stage.document.Has container) (apart : renderer.Apart container)
    (yields : environment.Yields sort) (proper : (Value.template template values).Proper sort)
    (world : σ) :
    (renderer.render environment container ⟨template, values⟩ world).2.1.Furnished config := by
  cases proper with
  | primitive shape => cases shape
  | template sorted count inside =>
  obtain ⟨owned, within, achieves⟩ := furnished.achieves_render laid has yields sorted inside
  obtain ⟨holding, modest⟩ := furnished
  obtain ⟨whole, inner, grove, same, backed, dwells, moves, fresh⟩ :=
    achieves #[] world renderer.stage rfl holding.whole
  -- The strategies stay, and nothing but what is inside of the container has changed.
  refine ⟨holding.step apart _ within whole moves fun other now => ?_, modest⟩
  obtain rfl := Option.some.inj (same.symm.trans now)
  exact ⟨grove, backed, dwells, fresh⟩

end Furnished

/-! ## Histories -/

/-- The states of a renderer that is given strategies, renders and releases in any order, with
templates of the given sort.  Strategies are modest.  Its document may change where the renderer holds
nothing, and no container is ever inside another. -/
inductive Emerges (sort : Template → Prop) (config : Config) : Renderer σ → Prop where
  | fresh {document : Document} (built : Document.empty.Edits document) :
      Emerges sort config (.fresh config document)
  | elsewhere {renderer : Renderer σ} (emerges : Emerges sort config renderer) {after : Document}
      (edits : renderer.stage.document.Edits after) (untouched : renderer.Untouched after)
      (journal : Array Event) :
      Emerges sort config
        { renderer with stage := { renderer.stage with document := after, journal } }
  | strategy {renderer : Renderer σ} (emerges : Emerges sort config renderer)
      {strategy : Strategy σ} (modest : strategy.Modest) :
      Emerges sort config (renderer.addStrategy strategy)
  | render {renderer : Renderer σ} (emerges : Emerges sort config renderer) {container : NodeId}
      (has : renderer.stage.document.Has container) (apart : renderer.Apart container)
      {environment : Environment σ} (yields : environment.Yields sort) {template : Template}
      {values : List Value} (proper : (Value.template template values).Proper sort) (world : σ) :
      Emerges sort config (renderer.render environment container ⟨template, values⟩ world).2.1
  | release {renderer : Renderer σ} (emerges : Emerges sort config renderer) (container : NodeId) :
      Emerges sort config (renderer.release container).2

theorem plain_release (renderer : Renderer σ) (container : NodeId) :
    (renderer.release container).2.plain = (renderer.plain.release container).2 ∧
      (renderer.release container).2.strategies = renderer.strategies := by
  have same : renderer.plain.instance? container = renderer.instance? container := rfl
  unfold Renderer.release
  rw [same]
  cases renderer.instance? container <;> exact ⟨rfl, rfl⟩

theorem Emerges.furnished {config : Config} {layout : Template → Stencil} {renderer : Renderer σ}
    (emerges : renderer.Emerges sort config) (laid : Layout sort layout) :
    renderer.Furnished config := by
  induction emerges with
  | fresh built => exact ⟨.fresh built, nofun⟩
  | elsewhere _ edits untouched journal furnished =>
    exact ⟨furnished.holding.elsewhere edits untouched journal, furnished.modest⟩
  | strategy _ modest furnished =>
    refine ⟨furnished.holding, fun strategy member => ?_⟩
    obtain old | new := List.mem_append.mp member
    · exact furnished.modest strategy old
    · exact List.mem_singleton.mp new ▸ modest
  | render _ has apart yields proper world furnished =>
    exact furnished.render laid has apart yields proper world
  | @release renderer _ container furnished =>
    obtain ⟨plain, strategies⟩ := renderer.plain_release container
    refine ⟨?_, strategies ▸ furnished.modest⟩
    rw [plain]
    exact furnished.holding.release Instance.detaches_backed container

/-- Histories without strategies are histories. -/
theorem Arises.emerges {config : Config} {renderer : Renderer σ}
    (arises : renderer.Arises sort config) : renderer.Emerges sort config := by
  induction arises with
  | fresh built => exact .fresh built
  | elsewhere _ edits untouched journal ih => exact .elsewhere ih edits untouched journal
  | render _ has apart yields proper world ih => exact .render ih has apart yields proper world
  | release _ container ih => exact .release ih container

/-! ## Leaving -/

/-- A container that an instance lived in has been rendered into anew: the instance has been detached
first, and of all nodes that there were, nothing but the container has changed from then on. -/
structure TakenOver (document : Document) (container : NodeId) (inner : Instance σ)
    (after : Document) : Prop where
  first : ∃ stage : Stage, stage.document = document ∧ stage.shortcomings = {} ∧
    (inner.detach.run stage).2.document.Moves (· = container) after
  new : ∀ child ∈ after.children container, ¬ document.Has child
  loose : ∀ child ∈ document.children container, after.parent child = none

/-- What takes the place of an instance that has been detached takes it over. -/
theorem takenOver_of_regrown {stage : Stage} (same : stage.document = document)
    (whole : stage.shortcomings = {}) (backed : inner.Backed grove)
    (site : Site document (.inside container data outer) grove) {grown : Grove}
    (regrown : Regrown (.inside container data outer) (inner.detach.run stage).2.document .nil after
      grown) : TakenOver document container inner after := by
  obtain ⟨-, vacated, detached⟩ := backed.performs_detach site stage same whole
  have moves : (inner.detach.run stage).2.document.Moves (· = container) after :=
    regrown.moves.weaken fun node _ own => own.resolve_right List.not_mem_nil
  -- What the container had is the roots of the old grove, which detaching has taken out.
  have roots : document.children container = grove.roots :=
    Dwells.children ⟨data, outer, site⟩
  constructor
  case first => exact ⟨stage, same, whole, moves⟩
  case new =>
    intro child member has
    rw [Dwells.children ⟨data, outer, regrown.site⟩] at member
    have new := (regrown.fresh child (Grove.mem_nodes_of_mem_roots member)).resolve_left
      List.not_mem_nil
    exact new (detached.moves.has has)
  case loose =>
    intro child member
    have inside : child ∈ grove.nodes := Grove.mem_nodes_of_mem_roots (roots ▸ member)
    have has := detached.moves.has (site.has inside)
    have apart : child ≠ container := fun same => site.parent_notMem (same ▸ inside)
    rw [Document.parent, moves.kept child has apart]
    exact vacated.loose child member

/-- Rendering another template takes the container over. -/
theorem takenOver_render {renderer : Renderer σ} {layout : Template → Stencil}
    (laid : Layout sort layout) (whole : renderer.stage.shortcomings = {})
    (modest : ∀ strategy ∈ renderer.strategies, strategy.Modest)
    (held : renderer.instance? container = some inner) (backed : inner.Backed grove)
    (site : Site renderer.stage.document (.inside container data outer) grove)
    {environment : Environment σ} (yields : environment.Yields sort) {template : Template}
    {values : List Value} (different : template ≠ inner.template)
    (proper : (Value.template template values).Proper sort) (world : σ) :
    TakenOver renderer.stage.document container inner
      (renderer.render environment container ⟨template, values⟩ world).2.1.stage.document := by
  cases proper with
  | primitive shape => cases shape
  | template sorted count inside =>
  let setting : Setting σ := ⟨environment, renderer.config, renderer.strategies⟩
  have yields : setting.environment.Yields sort := yields
  have other : (some inner).filter (·.template = template) = none := by simp [different.symm]
  have achieves :=
    achieves_renderInto yields modest laid sorted inside other (performs_evict backed site)
  rw [← held] at achieves
  obtain ⟨-, _, _, _, ⟨stage, same, whole', rfl⟩, -, -, grown⟩ :=
    achieves #[] world renderer.stage rfl whole
  exact takenOver_of_regrown same whole' backed site grown

/-- Detaching the instance of a container, on any stage with the document, empties the container, and
leaves nothing to be swept out.  So releasing the container empties it, which can be done once, and
rendering another template takes the container over. -/
theorem leaves_nothing {config : Config} {renderer : Renderer σ}
    (emerges : renderer.Emerges Template.Compiled config) {container : NodeId} {inner : Instance σ}
    (held : renderer.instance? container = some inner) :
    let document := renderer.stage.document
    let released := renderer.release container
    (∀ stage : Stage, stage.document = document → stage.shortcomings = {} →
      Vacated document container (inner.detach.run stage).2.document ∧
        (evict container (some inner)).run stage =
          inner.detach.run { stage with journal := stage.journal.push .instanceReplaced }) ∧
      released.1 = true ∧ released.2.stage = (inner.detach.run renderer.stage).2 ∧
      Vacated document container released.2.stage.document ∧
      released.2.template? container = none ∧ (released.2.release container).1 = false ∧
      ∀ {environment : Environment σ}, environment.Yields Template.Compiled →
        ∀ {template : Template} {values : List Value}, template ≠ inner.template →
          (Value.template template values).Proper Template.Compiled → ∀ world : σ,
            TakenOver document container inner (renderer.render environment container
              ⟨template, values⟩ world).2.1.stage.document := by
  intro document released
  obtain ⟨layout, laid⟩ := exists_layout fun template (compiled : template.Compiled) => compiled
  obtain ⟨holding, modest⟩ := emerges.furnished laid
  obtain ⟨grove, backed, data, outer, site⟩ := holding.lives container inner held
  have whole : renderer.stage.shortcomings = {} := holding.whole
  have detaches := backed.performs_detach site
  have release : released = (true, { renderer with
      stage := (inner.detach.run renderer.stage).2
      instances := without renderer.instances container }) := by
    simp only [released, Renderer.release, held]
    rfl
  have gone : released.2.instance? container = none := by
    rw [release, instance?, lookup_without, if_pos rfl]
  refine ⟨fun stage same whole => ⟨(detaches stage same whole).2.1, run_evict backed site same whole⟩,
    ?_, ?_, ?_, ?_, ?_, fun yields _ _ different proper world =>
      takenOver_render laid whole modest held backed site yields different proper world⟩
  · rw [release]
  · rw [release]
  · rw [release]
    exact (detaches renderer.stage rfl whole).2.1
  · rw [template?, gone]
    rfl
  · rw [Renderer.release, gone]

end Renderer

/-- A strategy for properties, which does no more than count what it is given to commit. -/
def Strategy.counting : Strategy Nat where
  claims := AttributePart.isProperty
  commit _ _ _ := do
    modifyThe Nat (· + 1)
    pure (.ok ())

theorem Strategy.modest_counting : Strategy.counting.Modest := by
  intro document element tag space attributes parent children found part value world
  change Performs (pure ((.ok (), world + 1) : Except ResolutionError Unit × Nat)) document _
  exact .pure ⟨.refl _ _, attributes, found⟩

/-- A template that starts with an anchor and ends with an element. -/
def Template.headed : Template where
  id := ⟨0, 2⟩
  literal := ⟨2⟩
  segments := ["", "<b .x=", "></b>"]
  blueprint :=
    { forest := [.text "", .element "b" none [] []]
      parts := [.node [0], .attribute { path := [1], name := ".x", rawName := ".x" }] }

theorem Template.compiled_headed : Template.headed.Compiled :=
  ⟨.standard, Template.headed.segments, by decide +kernel⟩

theorem Template.proper_headed {first second : Value} (proper : first.Proper Template.Compiled)
    (also : second.Proper Template.Compiled) :
    (Value.template Template.headed [first, second]).Proper Template.Compiled :=
  .template Template.compiled_headed rfl
    (List.forall_mem_cons.mpr ⟨proper, List.forall_mem_singleton.mpr also⟩)

namespace Renderer

/-- A renderer with a strategy that has shown a list, with a template among its items, in front of
all else in a container. -/
def stocked : Renderer Nat :=
  let document := (Document.empty.create (.element "div" none [])).2
  let renderer := (Renderer.fresh {} document).addStrategy .counting
  (renderer.render Environment.counting ⟨0⟩ ⟨Template.headed, [.items [.text "a",
    .template Template.headed [.deferred ⟨0⟩, .text "b"]], .bool true]⟩ 0).2.1

theorem emerges_stocked : stocked.Emerges Template.Compiled {} := by
  have text (data : String) : (Value.text data).Proper Template.Compiled := .primitive rfl
  have item := Template.proper_headed (.deferred ⟨0⟩) (text "b")
  have list : (Value.items [.text "a", .template Template.headed [.deferred ⟨0⟩, .text "b"]]).Proper
      Template.Compiled :=
    .items (List.forall_mem_cons.mpr ⟨text "a", List.forall_mem_singleton.mpr item⟩)
  have start : Emerges Template.Compiled {} (.fresh {} _ : Renderer Nat) :=
    .fresh (.create .refl (.element "div" none []))
  exact (start.strategy Strategy.modest_counting).render Nat.one_pos (fun _ holds => nomatch holds)
    Environment.yields_counting (Template.proper_headed list (.primitive rfl)) 0

/-- The container has an anchor, two items' anchors, what the second item shows, and an element. -/
theorem leaves_nothing_stocked :
    let document := stocked.stage.document
    let released := stocked.release ⟨0⟩
    document.children ⟨0⟩ = [⟨1⟩, ⟨3⟩, ⟨4⟩, ⟨5⟩, ⟨6⟩, ⟨2⟩] ∧
      released.1 = true ∧ Vacated document ⟨0⟩ released.2.stage.document ∧
      released.2.template? ⟨0⟩ = none ∧ (released.2.release ⟨0⟩).1 = false ∧
      ∃ inner, stocked.instance? ⟨0⟩ = some inner ∧
        TakenOver document ⟨0⟩ inner (stocked.render Environment.counting ⟨0⟩
          ⟨Template.lettered, [.text "c", .deferred ⟨1⟩]⟩ 3).2.1.stage.document := by
  have known : stocked.template? ⟨0⟩ = some Template.headed := by decide +kernel
  obtain ⟨inner, held, template⟩ := Option.map_eq_some_iff.mp known
  have different : Template.lettered ≠ inner.template := by
    rw [template]
    decide
  have proper : (Value.template Template.lettered [.text "c", .deferred ⟨1⟩]).Proper
      Template.Compiled :=
    (Template.proper_lettered (.primitive rfl) (.deferred _)).mono fun _ =>
      Template.Standard.compiled
  obtain ⟨-, released, -, vacated, nothing, again, takes⟩ := leaves_nothing emerges_stocked held
  exact ⟨by decide +kernel, released, vacated, nothing, again, inner, held,
    takes Environment.yields_counting different proper 3⟩

end Renderer

end LiveMarkup
