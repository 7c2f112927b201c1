import LiveMarkup.Proofs.Planting.Stability

/-! # What another call spares

A call of a renderer for the template that it holds in a container keeps the nodes in all matched
positions: they have the parents that they had, and come in the order in which they came.  Each change
that it records is due.

Each node of a bed is either in a matched position or in an unmatched one, and for those in matched
positions `Grove.Spliced` holds. -/

namespace LiveMarkup

open Document Markup

variable {σ : Type} {document before after : Document} {container : NodeId}

/-! ## Texts in a document -/

mutual

/-- The anchors of a bed show their texts in the document. -/
theorem Bed.data?_of_mem_texts : ∀ (bed : Bed) {parent : Option NodeId},
    bed.grove.Bears document parent → ∀ pair ∈ bed.texts,
      document.data? pair.1 = some (.text pair.2)
  | .done, _, _ => nofun
  | .element _ _ _ _ _ _ below rest, _, ⟨_, inside, behind⟩ =>
    List.forall_mem_append.mpr ⟨below.data?_of_mem_texts inside, rest.data?_of_mem_texts behind⟩
  | .text _ _ rest, _, ⟨_, _, behind⟩ => rest.data?_of_mem_texts behind
  | .comment _ _ rest, _, ⟨_, _, behind⟩ => rest.data?_of_mem_texts behind
  | .gap plot rest, _, bears => by
    obtain ⟨here, behind⟩ := Grove.bears_append.mp bears
    exact List.forall_mem_append.mpr
      ⟨plot.data?_of_mem_texts here, rest.data?_of_mem_texts behind⟩

theorem Plot.data?_of_mem_texts : ∀ (plot : Plot) {parent : Option NodeId},
    plot.grove.Bears document parent → ∀ pair ∈ plot.texts,
      document.data? pair.1 = some (.text pair.2)
  | .text _ _, _, ⟨cell, _, _⟩ => List.forall_mem_singleton.mpr (data?_of_cell? cell)
  | .nested _ _ bed, _, ⟨cell, _, behind⟩ =>
    List.forall_mem_cons.mpr ⟨data?_of_cell? cell, bed.data?_of_mem_texts behind⟩
  | .items _ plots, _, ⟨cell, _, behind⟩ =>
    List.forall_mem_cons.mpr ⟨data?_of_cell? cell, Plot.data?_of_mem_allTexts plots behind⟩

theorem Plot.data?_of_mem_allTexts : ∀ (plots : List Plot) {parent : Option NodeId},
    (Plot.groves plots).Bears document parent → ∀ pair ∈ Plot.allTexts plots,
      document.data? pair.1 = some (.text pair.2)
  | [], _, _ => nofun
  | plot :: plots, _, bears => by
    obtain ⟨here, behind⟩ := Grove.bears_append.mp bears
    exact List.forall_mem_append.mpr
      ⟨plot.data?_of_mem_texts here, Plot.data?_of_mem_allTexts plots behind⟩

end

/-! ## Sparing in documents -/

/-- Whether a node has been created by a change. -/
def Document.Creates (before after : Document) (node : NodeId) : Prop :=
  ¬ before.Has node ∧ after.Has node

/-- The text that an anchor shows before it is changed: that in the document, or none if it is created
on the way. -/
def Document.Showing (before after : Document) (old new : Bed) (anchor : NodeId) (shown : String) :
    Prop :=
  anchor ∈ old.anchors ∧ before.data? anchor = some (.text shown) ∨
    anchor ∈ new.anchors ∧ before.Creates after anchor ∧ shown = ""

/-- One bed has taken the place of another one, and the nodes in positions of both have been spared. -/
structure Document.Spares (before after : Document) (old new : Bed) : Prop where
  /-- The nodes in matched positions are the same before and after. -/
  nodes : new.matched old = old.matched new
  /-- All others are in unmatched positions. -/
  others : (old.matched new ++ old.unmatched new).Perm old.grove.nodes
  parents : ∀ node ∈ old.matched new, after.parent node = before.parent node
  /-- The matched nodes among any siblings come in the same order. -/
  order : ∀ parent, (after.children parent).filter (· ∈ old.matched new) =
    (before.children parent).filter (· ∈ old.matched new)
  /-- No text is set twice, and each change is due. -/
  changes : ∃ deeds, after.mutations.toList = before.mutations.toList ++ deeds ∧
    (retold deeds).Nodup ∧ ∀ deed ∈ deeds, deed.Due (before.Showing after old new)
      (fun element name => (element, name) ∈ old.bound) (before.Creates after)
      (· ∈ old.unmatched new)

/-- What is spared in a bed is spared in the document. -/
theorem Tilled.spares {place : Place} {old new : Bed} {next : Nat} {deeds : List Mutation}
    (tilled : Tilled place before old.grove next deeds after new.grove)
    (site : Site before place old.grove) (sound : before.Sound)
    (sparing : Sparing before.size next deeds old.tract new.tract (old.matched new)
      (new.matched old) (old.unmatched new)) : before.Spares after old new := by
  have soundAfter : after.Sound := tilled.regrown.moves.sound sound
  have inside (node : NodeId) (member : node ∈ old.matched new) : node ∈ old.grove.nodes :=
    sparing.whole.subset (List.mem_append_left _ member)
  have apart (node : NodeId) (gone : node ∈ old.unmatched new) : node ∉ old.matched new := by
    have once := sparing.whole.nodup_iff.mpr site.nodup_nodes
    exact fun member => (List.nodup_append'.mp once).2.2 member gone
  have creates (node : NodeId) (fresh : Fresh before.size next node) : before.Creates after node :=
    ⟨Nat.not_lt.mpr fresh.1, fresh.2.trans_eq tilled.size.symm⟩
  have spliced : Grove.Spliced (· ∈ old.matched new) old.grove new.grove :=
    sparing.spliced _ apart fun node fresh member =>
      (creates node fresh).1 (site.bears.has (inside node member))
  -- Wherever a matched node is, its parent has the same matched children.
  have parent (node : NodeId) (member : node ∈ old.matched new) : ∃ above,
      before.parent node = some above ∧ after.parent node = some above ∧
        (after.children above).filter (· ∈ old.matched new) =
          (before.children above).filter (· ∈ old.matched new) := by
    obtain ⟨above, here, there, rfl | same⟩ :=
      spliced.parent site.bears tilled.site.bears (inside node member) member
    · refine ⟨_, here, there, ?_⟩
      rw [children_of_cell? site.cell, children_of_cell? tilled.site.cell]
      simp only [List.filter_append, spliced.roots]
    · exact ⟨above, here, there, same⟩
  constructor
  case nodes => exact sparing.same
  case others => exact sparing.whole
  case parents =>
    intro node member
    obtain ⟨above, here, there, -⟩ := parent node member
    rw [here, there]
  case order =>
    intro above
    by_cases lone : ∃ node ∈ old.matched new,
        node ∈ after.children above ∨ node ∈ before.children above
    · obtain ⟨node, member, child⟩ := lone
      obtain ⟨other, here, there, same⟩ := parent node member
      have own : other = above := by
        obtain child | child := child
        · exact Option.some.inj (there.symm.trans (soundAfter above node child))
        · exact Option.some.inj (here.symm.trans (sound above node child))
      rwa [own] at same
    · have none (nodes : List NodeId) (among : ∀ node ∈ nodes,
          node ∈ after.children above ∨ node ∈ before.children above) :
          nodes.filter (· ∈ old.matched new) = [] :=
        List.filter_eq_nil_iff.mpr fun node member matched =>
          lone ⟨node, of_decide_eq_true matched, among node member⟩
      rw [none _ fun _ => .inl, none _ fun _ => .inr]
  case changes =>
    refine ⟨deeds, tilled.logs.mutations, ?_, fun deed member => ?_⟩
    · obtain ⟨told, perm, sublist⟩ := sparing.once
      refine perm.nodup_iff.mp (List.Nodup.sublist sublist ?_)
      rw [List.nodup_append']
      refine ⟨site.nodup_nodes.sublist old.sublist_anchors, created_nodup _ _, ?_⟩
      intro node here new
      exact (creates node (mem_created.mp new)).1
        (site.bears.has (old.sublist_anchors.subset here))
    · refine (sparing.due deed member).mono ?_ (fun _ _ => .inl) creates fun _ => id
      rintro anchor shown (known | ⟨fresh, there, empty⟩)
      · exact .inl ⟨List.mem_map_of_mem known, old.data?_of_mem_texts site.bears _ known⟩
      · exact .inr ⟨there, creates anchor fresh, empty⟩

/-! ## Calls -/

namespace Renderer

/-- A call for the template that a container holds spares the nodes in all matched positions. -/
theorem render_spares_matched {config : Config} {renderer : Renderer σ}
    (arises : renderer.Arises Template.Compiled config) {inner : Instance σ}
    (held : renderer.instance? container = some inner) {environment : Environment σ}
    (yields : environment.Yields Template.Compiled) {values : List Value}
    (proper : (Value.template inner.template values).Proper Template.Compiled) (world : σ) :
    let after := (renderer.render environment container ⟨inner.template, values⟩ world).2.1
    ∃ old new : Bed, inner = old.instance inner.template ∧
      after.instance? container = some (new.instance inner.template) ∧
      new.stencil = old.stencil ∧ Planted renderer.stage.document container old ∧
      Planted after.stage.document container new ∧
      renderer.stage.document.Spares after.stage.document old new := by
  obtain ⟨layout, laid⟩ := exists_layout fun template (compiled : template.Compiled) => compiled
  have holding := arises.holding laid
  cases proper with
  | primitive shape => cases shape
  | template sorted count proper =>
  obtain ⟨grove, sown, dwells⟩ := holding.lives container inner held
  obtain ⟨_, _, free, -⟩ := holding.exists_open dwells.has
  obtain ⟨bed, stage, whole, prepared, renders⟩ :=
    exists_prepared holding.plain holding.whole (laid _ sorted) free environment world
  obtain ⟨same, own, -⟩ := prepared.kept inner held rfl
  have planted := prepared.planted
  obtain ⟨data, outer, site⟩ := planted.dwells
  obtain ⟨-, -, tended⟩ := renderPrepared_tended yields.alike holding.plain laid whole prepared.laid
    planted.sound site proper rfl
  have spares := Plot.spares_tend layout (renderer.config.depthLimit + 1)
  rw [same] at site tended planted
  dsimp only
  rw [renders values]
  refine ⟨bed, _, own, ?_, tended.stencil, planted,
    ⟨tended.sound, data, outer, tended.tilled.site⟩,
    tended.tilled.spares site holding.sound (bed.spares_tend spares container _ _)⟩
  rw [instance?, tended.remembered]
  exact List.lookup_cons_self

/-- A nested template stays, and the text in it makes way for a list. -/
theorem render_spares_matched_seasoned :
    let values := [.text "c", .template Template.lettered
      [.text "a", .items [.text "d", .deferred ⟨1⟩]]]
    let after := (seasoned.render Environment.counting.traced ⟨0⟩ ⟨Template.lettered, values⟩
      (2, [])).2.1
    ∃ (inner : Instance (Nat × List Deferred)) (old new : Bed),
      seasoned.instance? ⟨0⟩ = some inner ∧ inner = old.instance Template.lettered ∧
      after.instance? ⟨0⟩ = some (new.instance Template.lettered) ∧ new.stencil = old.stencil ∧
      Planted seasoned.stage.document ⟨0⟩ old ∧ Planted after.stage.document ⟨0⟩ new ∧
      seasoned.stage.document.Spares after.stage.document old new := by
  have holds : (seasoned.instance? ⟨0⟩).map Instance.template = some Template.lettered := by
    decide +kernel
  obtain ⟨inner, held, same⟩ := Option.map_eq_some_iff.mp holds
  have arises := reached_seasoned.arises.mono fun _ => Template.Standard.compiled
  have text (data : String) : (Value.text data).Proper Template.Standard := .primitive rfl
  have list : (Value.items [.text "d", .deferred ⟨1⟩]).Proper Template.Standard :=
    .items (List.forall_mem_cons.mpr ⟨text "d", List.forall_mem_singleton.mpr (.deferred _)⟩)
  have proper := (Template.proper_lettered (text "c") (Template.proper_lettered (text "a") list)).mono
    fun _ => Template.Standard.compiled
  rw [← same] at proper ⊢
  obtain ⟨old, new, rest⟩ :=
    render_spares_matched arises held Environment.yields_counting.traced proper (2, [])
  exact ⟨inner, old, new, held, rest⟩

end Renderer

end LiveMarkup
