import LiveMarkup.Proofs.History
import LiveMarkup.Proofs.Planting.Rendering

/-! # The states of a renderer

In whatever order a renderer has rendered and released, every container that it holds has exactly the
nodes of a sound bed, and the instance that it remembers is that of this bed (`Arises.holding`).  This
needs nothing of the templates but that a stencil lays them out, which is so for all that have been
compiled. -/

namespace LiveMarkup

open Document Markup

variable {σ : Type} {sort : Template → Prop}

/-! ## Layouts -/

/-- A template that has been compiled, by any parser. -/
def Template.Compiled (template : Template) : Prop :=
  ∃ parser segments, Blueprint.compile parser segments = .ok template.blueprint

theorem Template.Standard.compiled {template : Template} (standard : template.Standard) :
    template.Compiled := by
  obtain ⟨segments, compiled⟩ := standard
  exact ⟨.standard, segments, compiled⟩

/-- Each template of a sort is laid out by a stencil. -/
def Layout (sort : Template → Prop) (layout : Template → Stencil) : Prop :=
  ∀ template, sort template → template.blueprint = (layout template).blueprint

theorem Template.Compiled.exists_stencil {template : Template} (compiled : template.Compiled) :
    ∃ stencil : Stencil, template.blueprint = stencil.blueprint := by
  obtain ⟨parser, segments, compiled⟩ := compiled
  obtain ⟨-, stencil, -, -, same, -⟩ := Blueprint.compile_eq_ok compiled
  exact ⟨stencil, same⟩

theorem exists_layout (compiled : ∀ template, sort template → template.Compiled) :
    ∃ layout, Layout sort layout := by
  have laid (template : Template) : ∃ stencil : Stencil,
      sort template → template.blueprint = stencil.blueprint := by
    by_cases holds : sort template
    · obtain ⟨stencil, same⟩ := (compiled template holds).exists_stencil
      exact ⟨stencil, fun _ => same⟩
    · exact ⟨.done, fun holds' => absurd holds' holds⟩
  choose layout laid using laid
  exact ⟨layout, laid⟩

theorem Value.Proper.mono {other : Template → Prop}
    (weaker : ∀ template, sort template → other template) {value : Value}
    (proper : value.Proper sort) : value.Proper other := by
  induction proper with
  | primitive shape => exact .primitive shape
  | template fits count _ ih => exact .template (weaker _ fits) count ih
  | items _ ih => exact .items ih
  | deferred computation => exact .deferred computation

namespace Renderer

/-! ## Calls -/

namespace Holding

variable {config : Config} {renderer : Renderer σ} {container : NodeId} {layout : Template → Stencil}

/-- An existing container can be rendered into, whatever lives there. -/
theorem exists_open (holding : renderer.Holding Instance.Sown config)
    (has : renderer.stage.document.Has container) :
    ∃ old owned, Open renderer.stage.document container (renderer.instance? container) old owned ∧
      ∀ node, owned node → renderer.stage.document.Inside container node := by
  cases held : renderer.instance? container with
  | none => exact ⟨_, _, .bare has holding.sound, fun node member => .child member⟩
  | some inner =>
    obtain ⟨_, ⟨bed, laid, same, rfl, sound, worn⟩, dwells⟩ := holding.lives container inner held
    exact ⟨_, _, .sown laid same sound worn dwells, fun node => dwells.inside_iff.mpr⟩

variable {old : Option Bed} {owned : NodeId → Prop}

/-- A call of a renderer tends a bed in the container, which is the same one for all values. -/
theorem exists_tended (holding : renderer.Holding Instance.Sown config) (laid : Layout sort layout)
    (free : Open renderer.stage.document container (renderer.instance? container) old owned)
    {cell : Cell} (found : renderer.stage.document.cell? container = some cell)
    {environment : Environment σ} (yields : environment.Yields sort) {template : Template}
    (sorted : sort template) (world : σ) :
    ∃ (bed : Bed) (document : Document),
      Prepared container (renderer.instance? container) old owned template (layout template)
        renderer.stage.document bed document ∧
      ∀ values : List Value, (∀ value ∈ values, value.Proper sort) →
        let read : (List Value × Array Diagnostic) × σ :=
          ((settle environment config template values).run #[]).run world
        renderer.Answers container (.vacated container cell) template bed document
          (bed.tend (Plot.tend layout (config.depthLimit + 1)) container read.1.1 document.size)
          read.1.2 read.2 (renderer.render environment container ⟨template, values⟩ world) := by
  obtain ⟨bed, stage, whole, prepared, renders⟩ :=
    exists_prepared holding.plain holding.whole (laid template sorted) free environment world
  refine ⟨bed, stage.document, prepared, fun values proper => ?_⟩
  rw [renders values, ← holding.config]
  obtain ⟨failures, state, tended⟩ := renderPrepared_tended yields.alike holding.plain laid whole
    prepared.laid prepared.planted.sound (prepared.site cell found) proper rfl
  exact ⟨failures, state, tended⟩

/-- Whatever it renders, a renderer goes on holding beds. -/
theorem render (holding : renderer.Holding Instance.Sown config) (laid : Layout sort layout)
    (has : renderer.stage.document.Has container) (apart : renderer.Apart container)
    {environment : Environment σ} (yields : environment.Yields sort) {template : Template}
    {values : List Value} (proper : (Value.template template values).Proper sort) (world : σ) :
    (renderer.render environment container ⟨template, values⟩ world).2.1.Holding Instance.Sown
      config := by
  cases proper with
  | primitive shape => cases shape
  | template sorted count inside =>
  obtain ⟨_, _, free, within⟩ := holding.exists_open has
  obtain ⟨cell, found⟩ := has.exists_cell?
  obtain ⟨bed, document, prepared, tends⟩ :=
    holding.exists_tended laid free found yields sorted world
  have tended := (tends values inside).tended
  rw [tended.remembered]
  have regrown := tended.tilled.regrown
  refine holding.step apart (some (_ : Instance σ)) within tended.whole
    (prepared.moves_regrown regrown) ?_
  rintro inner ⟨⟩
  have worn := prepared.worn.tend (Plot.tend layout (config.depthLimit + 1)) container
  refine ⟨_, ⟨_, ?_, rfl, rfl, tended.sound, worn _ _⟩, ⟨_, _, regrown.site⟩,
    prepared.fresh_regrown regrown⟩
  exact prepared.laid.trans (congrArg Stencil.blueprint tended.stencil.symm)

end Holding

/-! ## Histories -/

/-- The states of a renderer that renders and releases in any order, without strategies of its own
and with templates of the given sort.  Its document may change where the renderer holds nothing, and
no container is ever inside another. -/
inductive Arises (sort : Template → Prop) (config : Config) : Renderer σ → Prop where
  | fresh {document : Document} (built : Document.empty.Edits document) :
      Arises sort config (.fresh config document)
  | elsewhere {renderer : Renderer σ} (arises : Arises sort config renderer) {after : Document}
      (edits : renderer.stage.document.Edits after) (untouched : renderer.Untouched after)
      (journal : Array Event) :
      Arises sort config
        { renderer with stage := { renderer.stage with document := after, journal } }
  | render {renderer : Renderer σ} (arises : Arises sort config renderer) {container : NodeId}
      (has : renderer.stage.document.Has container) (apart : renderer.Apart container)
      {environment : Environment σ} (yields : environment.Yields sort) {template : Template}
      {values : List Value} (proper : (Value.template template values).Proper sort) (world : σ) :
      Arises sort config (renderer.render environment container ⟨template, values⟩ world).2.1
  | release {renderer : Renderer σ} (arises : Arises sort config renderer) (container : NodeId) :
      Arises sort config (renderer.release container).2

theorem Arises.holding {config : Config} {layout : Template → Stencil} {renderer : Renderer σ}
    (arises : renderer.Arises sort config) (laid : Layout sort layout) :
    renderer.Holding Instance.Sown config := by
  induction arises with
  | fresh built => exact .fresh built
  | elsewhere _ edits untouched journal holding => exact holding.elsewhere edits untouched journal
  | render _ has apart yields proper world holding =>
    exact holding.render laid has apart yields proper world
  | release _ container holding => exact holding.release Instance.detaches_sown container

/-- Histories with templates of the standard parser are histories. -/
theorem Reached.arises {config : Config} {renderer : Renderer σ} (reached : renderer.Reached config) :
    renderer.Arises Template.Standard config := by
  induction reached with
  | fresh built => exact .fresh built
  | elsewhere _ edits untouched journal ih => exact .elsewhere ih edits untouched journal
  | render _ has apart yields proper world ih => exact .render ih has apart yields proper world
  | release _ container ih => exact .release ih container

theorem Arises.mono {other : Template → Prop} (weaker : ∀ template, sort template → other template)
    {config : Config} {renderer : Renderer σ} (arises : renderer.Arises sort config) :
    renderer.Arises other config := by
  induction arises with
  | fresh built => exact .fresh built
  | elsewhere _ edits untouched journal ih => exact .elsewhere ih edits untouched journal
  | render _ has apart yields proper world ih =>
    exact .render ih has apart (fun computation state value reply =>
      (yields computation state value reply).mono weaker) (proper.mono weaker) world
  | release _ container ih => exact .release ih container

end Renderer

end LiveMarkup
