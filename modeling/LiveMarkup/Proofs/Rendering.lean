import LiveMarkup.Proofs.Updating

/-! # Rendering shows what is read

Rendering into a container leaves it with exactly the forest that is read for the result, whether an
instance lives there or not, and whether it is of the same template or of another one.

An instance lives in a container as long as the container has exactly the grove that the instance
fits (`Houses`).  A container without an instance may have any children: they are swept out. -/

namespace LiveMarkup

open Document Markup

variable {σ τ : Type} {sort : Template → Prop} {related : σ → τ → Prop} {setting : Setting σ}
  {environment : Environment τ} {document : Document} {container : NodeId}

/-! ## Emptying a container -/

theorem cell?_detach_child {node : NodeId} {cell above : Cell}
    (found : document.cell? node = some cell) (placed : cell.parent = some container)
    (outside : document.cell? container = some above) :
    (document.detach node).cell? container =
      some ⟨above.data, if container = node then none else above.parent,
        above.children.filter (· != node)⟩ := by
  by_cases apart : container = node
  · subst apart
    rw [outside] at found
    cases found
    simp [detach, parent_of_cell? outside, placed, editChildren, setParent, cell?_modify, outside]
  · rw [if_neg apart]
    exact cell?_detach_parent found placed outside apart

/-- The place in a container when all children have been taken out of it.  A container that was its own
child has no parent then. -/
abbrev Place.vacated (container : NodeId) (cell : Cell) : Place :=
  .inside container cell.data (if container ∈ cell.children then none else cell.parent)

/-- Sweeping takes all children out of a container, and changes nothing else. -/
theorem performs_sweep (sound : document.Sound) {cell : Cell}
    (found : document.cell? container = some cell) {count : Nat}
    (enough : cell.children.length ≤ count) :
    Performs (Renderer.sweep container count) document fun _ after =>
      after.cell? container =
          some ⟨cell.data, if container ∈ cell.children then none else cell.parent, []⟩ ∧
        document.Moves (fun node => node = container ∨ node ∈ cell.children) after := by
  induction count generalizing document cell with
  | zero =>
    have none : cell.children = [] := List.length_eq_zero_iff.mp (Nat.le_zero.mp enough)
    refine .pure ⟨?_, .refl _ _⟩
    rw [if_neg (by simp [none]), found, ← none]
  | succ count ih =>
    unfold Renderer.sweep
    refine .get fun stage same whole => ?_
    subst same
    have first : stage.firstChild container = cell.children[0]? := by
      simp [Stage.firstChild, Stage.child, whole, children_of_cell? found]
    cases kids : cell.children with
    | nil =>
      simp only [first, kids, List.getElem?_nil]
      refine .pure ⟨?_, .refl _ _⟩
      rw [if_neg (by simp), found, ← kids]
    | cons child rest =>
      simp only [first, kids, List.getElem?_cons_zero]
      have member : child ∈ stage.document.children container := by
        simp [children_of_cell? found, kids]
      have placed := sound container child member
      obtain ⟨inner, own⟩ := (has_of_parent placed).exists_cell?
      rw [parent_of_cell? own] at placed
      have left := cell?_detach_child own placed found
      refine (performs_removal stage.document child).bind fun _ between same => ?_
      subst same
      refine .get fun later same whole' => ?_
      have moved : stage.document.Moves (fun node => node = container ∨ node ∈ cell.children)
          later.document := by
        rw [same]
        refine ((moves_detach child stage.document).weaken fun node _ touched => ?_).record _
        obtain rfl | touched := touched
        · exact .inr (by simp [kids])
        · rw [parent_of_cell? own, placed] at touched
          exact .inl (Option.some.inj touched).symm
      rw [← cell?_record (.remove child), ← same] at left
      -- The sweep gives up if a child is still there after its removal, which is not so.
      have gone : later.firstChild container ≠ some child := by
        rw [Stage.firstChild, Stage.child, whole', children_of_cell? left]
        intro again
        have member := List.mem_of_getElem? (by simpa using again)
        simp at member
      rw [if_neg gone, ← same]
      -- The count bounds the children that are left, since one is gone.
      have fewer : (cell.children.filter (· != child)).length ≤ count := by
        have shorter := List.length_filter_le (· != child) rest
        simp only [kids, List.length_cons] at enough
        simp only [kids, List.filter_cons, bne_self_eq_false, Bool.false_eq_true, if_false]
        omega
      refine (ih (moved.sound sound) left fewer).mono fun _ after swept => ?_
      obtain ⟨emptied, more⟩ := swept
      refine ⟨?_, ?_⟩
      · rw [emptied]
        by_cases own : container = child <;> simp [own, kids]
      · rw [← kids]
        refine moved.trans more fun node _ touched => touched.imp_right fun inside => ?_
        exact List.mem_of_mem_filter inside

/-! ## Instances in containers -/

/-- An instance lives in a container: the container has exactly the grove that the instance fits. -/
def Houses (document : Document) (container : NodeId) (inner : Instance σ) (grove : Grove) : Prop :=
  inner.Fits grove ∧ ∃ data outer, Site document (.inside container data outer) grove

/-- Whether a container can be rendered into.  The given nodes are those inside of it that rendering
may change. -/
inductive Ready (document : Document) (container : NodeId) :
    Option (Instance σ) → (NodeId → Prop) → Prop where
  | bare (has : document.Has container) (sound : document.Sound) :
      Ready document container none (· ∈ document.children container)
  | housed {inner : Instance σ} {grove : Grove} (lives : Houses document container inner grove) :
      Ready document container (some inner) (· ∈ grove.nodes)

/-- What comes of a container: an instance lives there whose grove looks like the given forest, and
everything else is as before. -/
def Rehouses (container : NodeId) (owned : NodeId → Prop) (document : Document)
    (updated : Option (Instance σ)) (forest : Forest) (after : Document) : Prop :=
  ∃ inner grove, updated = some inner ∧ Houses after container inner grove ∧
    grove.forest = forest ∧ document.Moves (fun node => node = container ∨ owned node) after ∧
    ∀ node ∈ grove.nodes, owned node ∨ ¬ document.Has node

variable {previous : Option (Instance σ)} {owned : NodeId → Prop}

/-- Whatever is in a container without an instance is swept out. -/
theorem performs_evict_bare {cell : Cell} (found : document.cell? container = some cell)
    (sound : document.Sound) :
    Performs (Renderer.evict container (none : Option (Instance σ))) document fun _ after =>
      Site after (.vacated container cell) .nil ∧
        document.Moves (fun node => node = container ∨ node ∈ document.children container) after := by
  unfold Renderer.evict
  refine .get fun stage same _ => ?_
  subst same
  rw [children_of_cell? found]
  refine (performs_sweep sound found (Nat.le_refl _)).mono fun _ after ⟨emptied, moved⟩ => ?_
  exact ⟨⟨emptied, trivial, by simp [Place.inside], by simp [Place.inside]⟩, moved⟩

/-- An instance is detached from its container, and leaves nothing to be swept out. -/
theorem performs_evict_housed {inner : Instance σ} {grove : Grove} {data : NodeData}
    {outer : Option NodeId} (detaches : Performs inner.detach document fun _ after =>
      Regrown (.inside container data outer) document grove after .nil) :
    Performs (Renderer.evict container (some inner)) document fun _ after =>
      Site after (.inside container data outer) .nil ∧
        document.Moves (fun node => node = container ∨ node ∈ grove.nodes) after := by
  unfold Renderer.evict
  refine .noting (detaches.bind fun _ between detached => ?_)
  refine .get fun stage same _ => ?_
  subst same
  have emptied : stage.document.children container = [] := children_of_cell? detached.site.cell
  rw [emptied]
  exact .pure ⟨detached.site, detached.moves⟩

theorem performs_evict (ready : Ready document container previous owned) :
    Performs (Renderer.evict container previous) document fun _ after =>
      (∃ data outer, Site after (.inside container data outer) .nil) ∧
        document.Moves (fun node => node = container ∨ owned node) after := by
  cases ready with
  | bare has sound =>
    obtain ⟨cell, found⟩ := has.exists_cell?
    exact (performs_evict_bare found sound).mono fun _ after ⟨site, moved⟩ => ⟨⟨_, _, site⟩, moved⟩
  | housed lives =>
    obtain ⟨fits, data, outer, site⟩ := lives
    exact (performs_evict_housed (fits.performs_detach site)).mono fun _ after ⟨site, moved⟩ =>
      ⟨⟨data, outer, site⟩, moved⟩

theorem forM_liftM {α : Type} (action : α → StageM Unit) (list : List α) :
    (list.forM fun item => (liftM (action item) : RenderM σ Unit)) = liftM (list.forM action) := by
  induction list with
  | nil => rfl
  | cons item list ih =>
    change (liftM (action item) >>= fun _ => list.forM fun item => liftM (action item)) = _
    rw [ih]
    rfl

/-- Updating the instance that has been prepared in a container. -/
theorem simulates_rehouse {update : OutletUpdate σ} {content : Nat → Value → ReadM τ Forest}
    (alike : setting.environment.Alike sort related environment)
    (renews : Renews sort related update content) {between : Document} {inner : Instance σ}
    {grove : Grove} (lives : Houses between container inner grove)
    (moved : document.Moves (fun node => node = container ∨ owned node) between)
    (fresh : ∀ node ∈ grove.nodes, owned node ∨ ¬ document.Has node) {values : List Value}
    (count : values.length = inner.template.blueprint.parts.length)
    (proper : ∀ value ∈ values, value.Proper sort) :
    Simulates related (some <$> inner.update setting update 0 values)
      (Reading.template environment setting.config content 0 inner.template values) between
      (Rehouses container owned document) := by
  obtain ⟨fits, data, outer, site⟩ := lives
  rw [map_eq_pure_bind, ← bind_pure (Reading.template _ _ _ _ _ _)]
  refine (simulates_instance alike renews 0 fits count proper site).bind
    fun updated forest after ⟨_, grown, regrown, fits, looks⟩ => .pure ?_
  refine ⟨updated, grown, rfl, ⟨fits, data, outer, regrown.site⟩, looks, ?_, ?_⟩
  · refine moved.trans regrown.moves fun node has own => own.imp_right fun member => ?_
    exact (fresh node member).resolve_right (not_not_intro has)
  · intro node member
    obtain member | new := regrown.fresh node member
    · exact fresh node member
    · exact .inr fun has => new (moved.has has)

/-- Rendering a result into a container leaves there what is read for it. -/
theorem simulates_renderInto (alike : setting.environment.Alike sort related environment)
    (plain : setting.strategies = [])
    (laid : ∀ template, sort template →
      ∃ stencil : Stencil, template.blueprint = stencil.blueprint ∧ stencil.Distinct)
    (ready : Ready document container previous owned) {template : Template} {values : List Value}
    (proper : (Value.template template values).Proper sort) :
    Simulates related (Renderer.renderInto setting container previous ⟨template, values⟩)
      (Reading.result environment setting.config ⟨template, values⟩) document
      (Rehouses container owned document) := by
  cases proper with
  | primitive shape => cases shape
  | template sorted count inside =>
  have renews := Outlet.renews_update alike plain laid (Nat.le_refl _)
  have top : setting.depthAt (setting.config.depthLimit + 1) = 0 := by simp [Setting.depthAt]
  rw [top] at renews
  unfold Renderer.renderInto Renderer.prepare Reading.result
  refine .noting ?_
  -- An instance of the same template is kept, any other one is taken out before a new one is made.
  cases kept : previous.filter (·.template = template) with
  | some inner =>
    cases ready with
    | bare => cases kept
    | housed lives =>
      simp only [Option.filter_some, Option.ite_none_right_eq_some, Option.some.injEq,
        decide_eq_true_eq] at kept
      obtain ⟨rfl, rfl⟩ := kept
      dsimp only
      rw [bind_assoc]
      refine .noting ?_
      rw [pure_bind]
      exact simulates_rehouse alike renews lives (.refl _ _) (fun _ => .inl) count inside
  | none =>
    obtain ⟨stencil, layout, distinct⟩ := laid template sorted
    dsimp only
    rw [plain, bind_assoc]
    refine .perform (performs_evict ready) fun _ emptied vacated => ?_
    obtain ⟨⟨data, outer, site⟩, moved⟩ := vacated
    rw [bind_assoc]
    refine .perform (performs_make emptied layout distinct) fun _ made result => ?_
    obtain ⟨inner, grove, rfl, rfl, roots, fits, added⟩ := result
    dsimp only
    rw [forM_liftM, bind_assoc, roots]
    refine .perform (performs_insertAll (added.site site) (added.loose site))
      fun _ placed filled => ?_
    obtain ⟨inserted, putIn⟩ := filled
    rw [pure_bind]
    have grown := Regrown.of_insert added.moves added.fresh inserted putIn
    refine simulates_rehouse alike renews ⟨fits, data, outer, inserted⟩ ?_ ?_ count inside
    · refine moved.trans grown.moves fun node _ own => .inl ?_
      exact own.resolve_right List.not_mem_nil
    · exact fun node member => .inr fun has => added.fresh node member (moved.has has)

/-! ## Renderers -/

/-- The grove inside a node is all that can be seen of the node. -/
theorem Site.forest {data : NodeData} {outer : Option NodeId} {grove : Grove}
    (site : Site document (.inside container data outer) grove) :
    document.forest container = grove.forest := by
  have children : document.children container = grove.roots := by
    simpa [Place.inside] using children_of_cell? site.cell
  rw [Document.forest, children]
  exact site.bears.map_treeTo (site.bears.length_nodes_le site.nodup_nodes)

/-- What lives in a container is all that can be seen of it. -/
theorem Houses.forest {inner : Instance σ} {grove : Grove}
    (lives : Houses document container inner grove) : document.forest container = grove.forest := by
  obtain ⟨-, data, outer, site⟩ := lives
  exact site.forest

/-- A call of a renderer leaves in its container what is read for the result. -/
theorem render_rehouses {renderer : Renderer σ} {environment : Environment σ}
    {other : Environment τ} (alike : environment.Alike sort related other)
    (plain : renderer.strategies = []) (whole : renderer.stage.shortcomings = {})
    (laid : ∀ template, sort template →
      ∃ stencil : Stencil, template.blueprint = stencil.blueprint ∧ stencil.Distinct)
    (ready : Ready renderer.stage.document container (renderer.instance? container) owned)
    {template : Template} {values : List Value}
    (proper : (Value.template template values).Proper sort) (world : σ) (world' : τ)
    (agree : related world world') :
    let outcome := renderer.render environment container ⟨template, values⟩ world
    let read : (Forest × Array Diagnostic) × τ :=
      ((Reading.result other renderer.config ⟨template, values⟩).run #[]).run world'
    outcome.1.diagnostics = read.1.2.toList ∧ related outcome.2.2 read.2 ∧
      outcome.2.1.stage.shortcomings = {} ∧ ∃ inner grove,
        outcome.2.1 = { renderer with
          stage := outcome.2.1.stage
          instances := (container, inner) :: Renderer.without renderer.instances container } ∧
        Houses outcome.2.1.stage.document container inner grove ∧ grove.forest = read.1.1 ∧
        renderer.stage.document.Moves (fun node => node = container ∨ owned node)
          outcome.2.1.stage.document ∧
        ∀ node ∈ grove.nodes, owned node ∨ ¬ renderer.stage.document.Has node := by
  let setting : Setting σ := ⟨environment, renderer.config, renderer.strategies⟩
  have alike : setting.environment.Alike sort related other := alike
  have plain : setting.strategies = [] := plain
  obtain ⟨reports, agree', whole', inner, grove, same, rest⟩ :=
    simulates_renderInto alike plain laid ready proper renderer.stage world world' #[] #[] rfl whole
      agree rfl
  refine ⟨congrArg Array.toList reports, agree', whole', inner, grove, ?_, rest⟩
  let kept (updated : Option (Instance σ)) : Renderer σ := { renderer with
    stage := (renderer.render environment container ⟨template, values⟩ world).2.1.stage
    instances := (updated.map (container, ·)).toList ++
      Renderer.without renderer.instances container }
  exact congrArg kept same

end LiveMarkup
