import LiveMarkup.Proofs.Planting.Sparing

/-! # Tending spares what is matched

Whatever a bed is tended with, the nodes in matched positions stay where they are, and only changes are
recorded that are due.  This is `Plot.spares_tend`, by induction on the room for templates and lists;
along the nodes of a bed it is `Bed.spares_tend`. -/

namespace LiveMarkup

open Document Markup

/-! ## Beds as pieces -/

def Bed.tract (bed : Bed) : Tract :=
  ⟨bed.grove, bed.texts, bed.bound⟩

def Plot.tract (plot : Plot) : Tract :=
  ⟨plot.grove, plot.texts, plot.bound⟩

/-- Plots one behind the other. -/
def Plot.tracts (plots : List Plot) : Tract :=
  ⟨Plot.groves plots, Plot.allTexts plots, Plot.allBound plots⟩

theorem Bed.tract_element (node : NodeId) (name : String) (space : Option String)
    (static attributes : List (String × String)) (fixtures : List Fixture) (below rest : Bed) :
    (element node name space static attributes fixtures below rest).tract =
      .element node (.element name space attributes) (fixtures.map (·.part.name)) below.tract ++
        rest.tract := by
  rw [Tract.append_def, Tract.element, List.map_map]
  rfl

theorem Plot.tract_nested (anchor : NodeId) (template : Template) (bed : Bed) :
    (nested anchor template bed).tract = .anchor anchor "" ++ bed.tract :=
  rfl

mutual

/-- The anchors of a bed are among its nodes, in their order. -/
theorem Bed.sublist_anchors : ∀ bed : Bed, bed.anchors.Sublist bed.grove.nodes
  | .done => .slnil
  | .element node _ _ _ _ _ below rest => by
    rw [Bed.anchors, Bed.texts, List.map_append, Bed.grove, Grove.nodes_cons]
    exact (below.sublist_anchors.append rest.sublist_anchors).cons node
  | .text node _ rest => rest.sublist_anchors.cons node
  | .comment node _ rest => rest.sublist_anchors.cons node
  | .gap plot rest => by
    rw [Bed.anchors, Bed.texts, List.map_append, Bed.grove, Grove.nodes_append]
    exact plot.sublist_anchors.append rest.sublist_anchors

theorem Plot.sublist_anchors : ∀ plot : Plot, (plot.texts.map Prod.fst).Sublist plot.grove.nodes
  | .text _ _ => .refl _
  | .nested _ _ bed => bed.sublist_anchors.cons_cons _
  | .items _ plots => (Plot.sublist_allAnchors plots).cons_cons _

theorem Plot.sublist_allAnchors : ∀ plots : List Plot,
    ((Plot.allTexts plots).map Prod.fst).Sublist (Plot.groves plots).nodes
  | [] => .slnil
  | plot :: plots => by
    rw [Plot.allTexts, List.map_append, Plot.groves, Grove.nodes_append]
    exact plot.sublist_anchors.append (Plot.sublist_allAnchors plots)

end

/-! ## Taking away -/

/-- Changes that are due in a piece which is taken away. -/
structure Takes (texts : List (NodeId × String)) (nodes : List NodeId) (deeds : List Mutation) :
    Prop where
  due : ∀ deed ∈ deeds, deed.Due (fun anchor shown => (anchor, shown) ∈ texts)
    (fun _ _ => False) (fun _ => False) (· ∈ nodes)
  once : (retold deeds).Sublist (texts.map Prod.fst)

namespace Takes

variable {texts texts' : List (NodeId × String)} {nodes nodes' : List NodeId}
  {deeds more : List Mutation}

theorem nil : Takes texts nodes [] :=
  ⟨nofun, List.nil_sublist _⟩

theorem weaken (takes : Takes texts nodes deeds) (known : texts.Sublist texts')
    (inside : nodes ⊆ nodes') : Takes texts' nodes' deeds where
  due deed member := (takes.due deed member).mono (fun _ _ member => known.subset member)
    (fun _ _ => .inl) (fun _ => id) fun _ member => inside member
  once := takes.once.trans (known.map _)

theorem append (first : Takes texts nodes deeds) (second : Takes texts' nodes' more) :
    Takes (texts ++ texts') (nodes ++ nodes') (deeds ++ more) where
  due deed member := by
    obtain member | member := List.mem_append.mp member
    · exact (first.due deed member).mono (fun _ _ => List.mem_append_left _) (fun _ _ => .inl)
        (fun _ => id) fun _ => List.mem_append_left _
    · exact (second.due deed member).mono (fun _ _ => List.mem_append_right _) (fun _ _ => .inl)
        (fun _ => id) fun _ => List.mem_append_right _
  once := by
    rw [retold_append, List.map_append]
    exact first.once.append second.once

/-- Nodes may be taken out after that. -/
theorem removing (takes : Takes texts nodes deeds) {roots : List NodeId} (inside : roots ⊆ nodes) :
    Takes texts nodes (deeds ++ roots.map .remove) where
  due deed member := by
    obtain member | member := List.mem_append.mp member
    · exact takes.due deed member
    · obtain ⟨node, among, rfl⟩ := List.mem_map.mp member
      exact .remove (inside among)
  once := by
    have none : retold (roots.map .remove) = [] := by
      rw [retold, List.filterMap_map]
      exact List.filterMap_eq_nil_iff.mpr fun _ _ => rfl
    rw [retold_append, none, List.append_nil]
    exact takes.once

end Takes

mutual

theorem Bed.takes_clearing : ∀ bed : Bed, Takes bed.texts bed.grove.nodes bed.clearing
  | .done => .nil
  | .element _ _ _ _ _ _ below rest => by
    refine rest.takes_clearing.weaken (List.sublist_append_right _ _) ?_
    exact List.subset_cons_of_subset _ (List.subset_append_right _ _)
  | .text _ _ rest => rest.takes_clearing.weaken (.refl _) (List.subset_cons_self _ _)
  | .comment _ _ rest => rest.takes_clearing.weaken (.refl _) (List.subset_cons_self _ _)
  | .gap plot rest => by
    rw [Bed.clearing, Bed.texts, Bed.grove, Grove.nodes_append]
    refine .append (plot.takes_clearing.weaken (.refl _) ?_) rest.takes_clearing
    exact (List.tail_sublist _).subset

theorem Plot.takes_clearing : ∀ plot : Plot, Takes plot.texts plot.grove.nodes.tail plot.clearing
  | .text anchor data => by
    rw [Plot.clearing, Plot.writing]
    split
    · exact .nil
    · next changes =>
      refine ⟨fun deed member => ?_, .refl _⟩
      obtain rfl := List.mem_singleton.mp member
      exact .text List.mem_cons_self changes
  | .nested _ _ bed =>
    (bed.takes_clearing.removing bed.subset_roots).weaken (List.sublist_cons_self _ _)
      (List.Subset.refl _)
  | .items _ plots => (Plot.takes_dropping plots).weaken (List.sublist_cons_self _ _)
    (List.Subset.refl _)

theorem Plot.takes_dropping : ∀ plots : List Plot,
    Takes (Plot.allTexts plots) (Plot.groves plots).nodes (Plot.dropping plots)
  | [] => .nil
  | plot :: plots => by
    have cleared := plot.takes_clearing.weaken (.refl _) (List.tail_sublist _).subset
    have inside : [plot.anchor] ⊆ plot.grove.nodes := by simpa using plot.anchor_mem_nodes
    rw [Plot.dropping, Plot.allTexts, Plot.groves, Grove.nodes_append, ← List.singleton_append,
      ← List.append_assoc]
    exact (cleared.removing inside).append (Plot.takes_dropping plots)

end

theorem Takes.spares (tract : Tract) {deeds : List Mutation}
    (takes : Takes tract.texts tract.grove.nodes deeds)
    (anchors : tract.anchors.Sublist tract.grove.nodes) (number : Nat) :
    Sparing number number deeds tract .empty [] [] tract.grove.nodes :=
  .lost number takes.due takes.once fun _ member => anchors.subset member

theorem Bed.spares_detaching (bed : Bed) (number : Nat) :
    Sparing number number (bed.clearing ++ bed.roots.map .remove) bed.tract .empty [] []
      bed.grove.nodes :=
  Takes.spares bed.tract (bed.takes_clearing.removing bed.subset_roots) bed.sublist_anchors number

theorem Plot.spares_dropping (plots : List Plot) (number : Nat) :
    Sparing number number (dropping plots) (tracts plots) .empty [] [] (groves plots).nodes :=
  Takes.spares (tracts plots) (takes_dropping plots) (sublist_allAnchors plots) number

/-! ## Leaving alone -/

mutual

theorem Bed.spares_self (number : Nat) : ∀ bed : Bed, Sparing number number [] bed.tract bed.tract
    (bed.matched bed) (bed.matched bed) (bed.unmatched bed)
  | .done => .nil number
  | .element node name space static attributes fixtures below rest => by
    have none : ∀ deed ∈ ([] : List Mutation), ∃ name ∈ fixtures.map (·.part.name), ∃ value,
        deed = .setAttribute node name value := nofun
    rw [Bed.tract_element]
    exact .append (.element (below.spares_self number) none) (rest.spares_self number)
  | .text node data rest => .append (.leaf number node (.text data)) (rest.spares_self number)
  | .comment node data rest =>
    .append (.leaf number node (.comment data)) (rest.spares_self number)
  | .gap plot rest => .append (plot.spares_self number) (rest.spares_self number)

theorem Plot.spares_self (number : Nat) : ∀ plot : Plot, Sparing number number [] plot.tract plot.tract
    (plot.matched plot) (plot.matched plot) (plot.unmatched plot)
  | .text anchor shown => by
    have same := Sparing.anchor number anchor shown shown
    rw [Plot.writing_self] at same
    exact same
  | .nested anchor template bed => by
    have same := Sparing.anchor number anchor "" ""
    rw [Plot.writing_self] at same
    rw [Plot.tract_nested, Plot.matched, Plot.unmatched, if_pos rfl, if_pos rfl]
    exact same.append (bed.spares_self number)
  | .items anchor plots => by
    have same := Sparing.anchor number anchor "" ""
    rw [Plot.writing_self] at same
    exact same.append (Plot.spares_selfAll number plots)

theorem Plot.spares_selfAll (number : Nat) : ∀ plots : List Plot,
    Sparing number number [] (Plot.tracts plots) (Plot.tracts plots) (Plot.matchedAll plots plots)
      (Plot.matchedAll plots plots) (Plot.unmatchedAll plots plots)
  | [] => .nil number
  | plot :: plots => .append (plot.spares_self number) (Plot.spares_selfAll number plots)

end

/-! ## Sowing -/

theorem Plot.unmatched_text (anchor : NodeId) (shown : String) (plot : Plot) :
    (text anchor shown).unmatched plot = [] := by
  cases plot <;> rfl

namespace Stencil

variable {inside : Option NodeId} {path : Path} {child next : Nat}

theorem next_le_sow (stencil : Stencil) : next ≤ (stencil.sow inside path child next).next := by
  induction stencil generalizing inside path child next with
  | done => exact Nat.le_refl next
  | element name space static bound below rest ihBelow ihRest =>
    exact (Nat.le_succ next).trans (ihBelow.trans ihRest)
  | text data rest ih | comment data rest ih | gap rest ih => exact (Nat.le_succ next).trans ih

/-- The nodes of a new bed are those that have been created. -/
theorem nodes_sow (stencil : Stencil) : (stencil.sow inside path child next).result.grove.nodes =
    created next (stencil.sow inside path child next).next := by
  induction stencil generalizing inside path child next with
  | done => exact (created_self next).symm
  | element name space static bound below rest ihBelow ihRest =>
    simp only [sow, Tend.bind_apply, Tend.create_apply, Tend.record_apply, Tend.pure_apply, Bed.grove,
      Grove.nodes_cons, ihBelow, ihRest]
    rw [created_append below.next_le_sow rest.next_le_sow, ← List.singleton_append, ← created_succ]
    exact created_append (Nat.le_succ next) (below.next_le_sow.trans rest.next_le_sow)
  | text data rest ih | comment data rest ih =>
    simp only [sow, Tend.bind_apply, Tend.create_apply, Tend.record_apply, Tend.pure_apply, Bed.grove,
      Grove.nodes_cons, Grove.nodes_nil, List.nil_append, ih]
    rw [← List.singleton_append, ← created_succ]
    exact created_append (Nat.le_succ next) rest.next_le_sow
  | gap rest ih =>
    simp only [sow, Tend.bind_apply, Tend.create_apply, Tend.record_apply, Tend.pure_apply, Bed.grove,
      Plot.grove, Grove.nodes_append, Grove.nodes_leaf, ih]
    rw [← created_succ]
    exact created_append (Nat.le_succ next) rest.next_le_sow

/-- All anchors of a new bed are empty. -/
theorem texts_sow (stencil : Stencil) :
    ∀ pair ∈ (stencil.sow inside path child next).result.texts, pair.2 = "" := by
  induction stencil generalizing inside path child next with
  | done => nofun
  | element name space static bound below rest ihBelow ihRest =>
    exact List.forall_mem_append.mpr ⟨ihBelow, ihRest⟩
  | text data rest ih | comment data rest ih => exact ih
  | gap rest ih => exact List.forall_mem_cons.mpr ⟨rfl, ih⟩

/-- The dynamic attributes of a new bed are those of its elements. -/
theorem bound_sow (stencil : Stencil) :
    ∀ pair ∈ (stencil.sow inside path child next).result.bound,
      pair.1 ∈ (stencil.sow inside path child next).result.grove.nodes := by
  induction stencil generalizing inside path child next with
  | done => nofun
  | element name space static bound below rest ihBelow ihRest =>
    simp only [sow, Tend.bind_apply, Tend.create_apply, Tend.record_apply, Tend.pure_apply, Bed.grove,
      Bed.bound, Grove.nodes_cons, List.mem_append, List.mem_cons, List.map_map]
    rintro pair ((own | member) | member)
    · obtain ⟨_, -, rfl⟩ := List.mem_map.mp own
      exact .inl rfl
    · exact .inr (.inl (ihBelow pair member))
    · exact .inr (.inr (ihRest pair member))
  | text data rest ih | comment data rest ih =>
    exact fun pair member => List.mem_cons_of_mem _ (ih pair member)
  | gap rest ih => exact fun pair member => List.mem_cons_of_mem _ (ih pair member)

/-- Sowing sets attributes of new elements, and puts in new nodes. -/
theorem makes_sow (stencil : Stencil) :
    Makes next (stencil.sow inside path child next).next (stencil.sow inside path child next).deeds := by
  induction stencil generalizing inside path child next with
  | done => exact .nil
  | element name space static bound below rest ihBelow ihRest =>
    simp only [sow, Tend.bind_apply, Tend.create_apply, Tend.record_apply, Tend.pure_apply,
      List.nil_append, List.append_nil]
    have fewer := @next_le_sow (some ⟨next⟩) (path ++ [child]) 0 (next + 1) below
    have more := fewer.trans (@next_le_sow inside path (child + 1) _ rest)
    refine .append (.dresses more) (.append (ihBelow.wider (Nat.le_succ next) rest.next_le_sow)
      (.append (.inserts more) (ihRest.wider ?_ (Nat.le_refl _))))
    exact (Nat.le_succ next).trans fewer
  | text data rest ih | comment data rest ih | gap rest ih =>
    simp only [sow, Tend.bind_apply, Tend.create_apply, Tend.record_apply, Tend.pure_apply,
      List.nil_append, List.append_nil]
    exact .append (.inserts rest.next_le_sow) (ih.wider (Nat.le_succ next) (Nat.le_refl _))

/-- Everything in a new bed is matched by what becomes of it. -/
theorem unmatched_tend_sow (stencil : Stencil) (update : PlotUpdate) (parent : NodeId)
    (values : List Value) (later : Nat) :
    let bed := (stencil.sow inside path child next).result
    bed.unmatched (bed.tend update parent values later).result = [] := by
  induction stencil generalizing inside path child next parent values later with
  | done => rfl
  | element name space static bound below rest ihBelow ihRest =>
    exact List.append_eq_nil_iff.mpr ⟨ihBelow _ _ _, ihRest _ _ _⟩
  | text data rest ih | comment data rest ih => exact ih _ _ _
  | gap rest ih =>
    obtain _ | ⟨value, values⟩ := values
    · have none := @ih inside path (child + 1) (next + 1) parent [] later
      dsimp only at none
      rw [Bed.tend_nil] at none
      exact none
    · refine List.append_eq_nil_iff.mpr ⟨?_, ih _ _ _⟩
      exact Plot.unmatched_text _ _ _

end Stencil

/-! ## Tending -/

/-- Whatever a plot is updated with, its matched positions are spared. -/
def PlotUpdate.Spares (update : PlotUpdate) : Prop :=
  ∀ (parent : NodeId) (plot : Plot) (value : Value) (next : Nat),
    let harvest := update parent plot value next
    Sparing next harvest.next harvest.deeds plot.tract harvest.result.tract
      (plot.matched harvest.result) (harvest.result.matched plot) (plot.unmatched harvest.result)

/-- The dynamic attributes of an element are set under their names. -/
theorem Fixture.deeds_tendAll (node : NodeId) (fixtures : List Fixture) (values : List Value)
    (next : Nat) : ∀ deed ∈ (tendAll node fixtures values next).deeds,
      ∃ name ∈ fixtures.map (·.part.name), ∃ value, deed = .setAttribute node name value := by
  induction fixtures generalizing values with
  | nil => nofun
  | cons fixture fixtures ih =>
    obtain _ | ⟨value, values⟩ := values
    · nofun
    simp only [tendAll, Tend.bind_apply, Tend.record_apply, Tend.pure_apply, List.append_nil]
    intro deed member
    obtain member | member := List.mem_append.mp member
    · unfold Fixture.deeds at member
      split at member
      · cases member
      · obtain rfl := List.mem_singleton.mp member
        exact ⟨_, List.mem_cons_self, _, rfl⟩
    · obtain ⟨name, among, rest⟩ := ih values deed member
      exact ⟨name, List.mem_cons_of_mem _ among, rest⟩

theorem Fixture.map_name_tendAll (node : NodeId) (fixtures : List Fixture) (values : List Value)
    (next : Nat) : (tendAll node fixtures values next).result.map (·.part.name) =
      fixtures.map (·.part.name) := by
  have names := congrArg (List.map Prod.fst) (names_tendAll node fixtures values next)
  rwa [List.map_map, List.map_map] at names

theorem Bed.spares_tend {update : PlotUpdate} (spares : update.Spares) (bed : Bed) (parent : NodeId)
    (values : List Value) (next : Nat) :
    let harvest := bed.tend update parent values next
    Sparing next harvest.next harvest.deeds bed.tract harvest.result.tract
      (bed.matched harvest.result) (harvest.result.matched bed) (bed.unmatched harvest.result) := by
  induction bed generalizing parent values next with
  | done => exact .nil next
  | element node name space static attributes fixtures below rest ihBelow ihRest =>
    have inside := ihBelow node (values.drop fixtures.length) next
    have behind := ihRest parent (values.drop (fixtures.length + below.stencil.count))
      (below.tend update node (values.drop fixtures.length) next).next
    have own := Fixture.deeds_tendAll node fixtures values next
    simp only [tend, Tend.bind_apply, Tend.pure_apply, List.append_nil, Fixture.next_tendAll,
      tract_element, Fixture.map_name_tendAll]
    rw [← List.append_assoc]
    exact (inside.element own).append behind
  | text node data rest ih => exact .append (.leaf next node (.text data)) (ih parent values next)
  | comment node data rest ih =>
    exact .append (.leaf next node (.comment data)) (ih parent values next)
  | gap plot rest ih =>
    obtain _ | ⟨value, values⟩ := values
    · exact (gap plot rest).spares_self next
    · have first := spares parent plot value next
      have others := ih parent values (update parent plot value next).next
      simp only [tend, Tend.bind_apply, Tend.pure_apply, List.append_nil]
      exact first.append others

namespace Plot

theorem spares_clearing (plot : Plot) (number : Nat) :
    Sparing number number plot.clearing plot.tract (.anchor plot.anchor "") [plot.anchor]
      [plot.anchor] plot.grove.nodes.tail := by
  have same (anchor : NodeId) : Sparing number number [] (.anchor anchor "") (.anchor anchor "")
      [anchor] [anchor] [] := by
    have same := Sparing.anchor number anchor "" ""
    rwa [writing_self] at same
  cases plot with
  | text anchor shown => exact .anchor number anchor shown ""
  | nested anchor template bed => exact (same anchor).append (bed.spares_detaching number)
  | items anchor plots => exact (same anchor).append (spares_dropping plots number)

/-- Any plot can be made to show a text. -/
theorem spares_showText (plot : Plot) (data : String) (next : Nat) :
    let harvest := plot.showText data next
    Sparing next harvest.next harvest.deeds plot.tract harvest.result.tract
      (plot.matched harvest.result) (harvest.result.matched plot)
      (plot.unmatched harvest.result) := by
  cases plot with
  | text anchor shown =>
    dsimp only
    rw [showText_apply_text]
    exact .anchor next anchor shown data
  | nested anchor template bed =>
    -- The text is set after all else has gone, which is the same as before.
    refine (Sparing.append (.anchor next anchor "" data) (bed.spares_detaching next)).reorder ?_
    simp only [showText, clearing, Tend.bind_apply, Tend.record_apply, Tend.pure_apply,
      List.append_nil]
    exact List.perm_append_comm
  | items anchor plots =>
    refine (Sparing.append (.anchor next anchor "" data) (spares_dropping plots next)).reorder ?_
    simp only [showText, clearing, Tend.bind_apply, Tend.record_apply, Tend.pure_apply,
      List.append_nil]
    exact List.perm_append_comm

section

variable {layout : Template → Stencil} {update : PlotUpdate} (spares : update.Spares)
include spares

/-- Any plot can be made to show a template in a new bed, all nodes of which are new. -/
theorem spares_replace (parent : NodeId) (plot : Plot) (template : Template) (values : List Value)
    (next : Nat) :
    let harvest := plot.replace layout update parent template values next
    Sparing next harvest.next harvest.deeds plot.tract harvest.result.tract [plot.anchor]
      [plot.anchor] plot.grove.nodes.tail := by
  let sown := (layout template).sow none [] 0 next
  have more : next ≤ sown.next := (layout template).next_le_sow
  have nodes : sown.result.grove.nodes = created next sown.next := (layout template).nodes_sow
  have made : Makes next sown.next (sown.deeds ++ sown.result.roots.map (.insert parent ·)) := by
    refine .append (layout template).makes_sow fun deed member => ?_
    obtain ⟨root, among, rfl⟩ := List.mem_map.mp member
    exact .insert (mem_created.mp (nodes ▸ sown.result.subset_roots among))
  have tended := sown.result.spares_tend spares parent values sown.next
  dsimp only at tended
  rw [(layout template).unmatched_tend_sow update parent values sown.next] at tended
  have anew := tended.grown more nodes sown.result.sublist_anchors (layout template).texts_sow
    (layout template).bound_sow made
  have both := (plot.spares_clearing next).append anew
  simp only [Tract.append_empty, List.append_nil, List.append_assoc] at both
  exact both

theorem spares_showTemplate (parent : NodeId) (plot : Plot) (template : Template)
    (values : List Value) (next : Nat) :
    let harvest := plot.showTemplate layout update parent template values next
    Sparing next harvest.next harvest.deeds plot.tract harvest.result.tract
      (plot.matched harvest.result) (harvest.result.matched plot)
      (plot.unmatched harvest.result) := by
  have anew := @spares_replace layout update spares parent plot template values next
  cases plot with
  | text anchor shown => exact anew
  | nested anchor old bed =>
    by_cases same : old = template
    · subst same
      have kept := Sparing.anchor next anchor "" ""
      rw [writing_self] at kept
      have shows : (nested anchor old bed).showTemplate layout update parent old values =
          nested anchor old <$> bed.tend update parent values := by
        rw [showTemplate, if_pos rfl]
      dsimp only
      rw [shows, Tend.map_apply, matched, if_pos rfl, matched, if_pos rfl, unmatched, if_pos rfl]
      exact kept.append (bed.spares_tend spares parent values next)
    · have shows : (nested anchor old bed).showTemplate layout update parent template values =
          (nested anchor old bed).replace layout update parent template values := by
        rw [showTemplate, if_neg same]
      dsimp only at anew ⊢
      rw [shows]
      have there : ((nested anchor old bed).replace layout update parent template values
          next).result = nested anchor template _ := rfl
      rw [there] at anew ⊢
      rw [matched, if_neg same, matched, if_neg (Ne.symm same), unmatched, if_neg same]
      exact anew
  | items anchor plots => exact anew

omit spares in
theorem matchedAll_nil_right (plots : List Plot) : matchedAll plots [] = [] := by
  cases plots <;> rfl

theorem spares_showItems (parent : NodeId) (plots : List Plot) (values : List Value) (next : Nat) :
    let harvest := showItems update parent plots values next
    Sparing next harvest.next harvest.deeds (tracts plots) (tracts harvest.result)
      (matchedAll plots harvest.result) (matchedAll harvest.result plots)
      (unmatchedAll plots harvest.result) := by
  induction values generalizing plots next with
  | nil =>
    cases plots with
    | nil => exact .nil next
    | cons plot plots =>
      simp only [showItems, Tend.bind_apply, Tend.record_apply, Tend.pure_apply, List.append_nil]
      exact spares_dropping (plot :: plots) next
  | cons value values ih =>
    cases plots with
    | nil =>
      -- A new item is an empty anchor that gets its content.
      have made : Makes next (next + 1) [.insert parent ⟨next⟩] := by
        intro deed member
        obtain rfl := List.mem_singleton.mp member
        exact .insert ⟨Nat.le_refl _, Nat.lt_succ_self _⟩
      have tended := spares parent (text ⟨next⟩ "") value (next + 1)
      dsimp only at tended
      rw [unmatched_text] at tended
      have first := tended.grown (Nat.le_succ next) (created_succ next).symm (.refl _)
        (List.forall_mem_singleton.mpr rfl) (List.forall_mem_nil _) made
      have others := ih [] (update parent (text ⟨next⟩ "") value (next + 1)).next
      dsimp only at others
      rw [matchedAll_nil_right] at others
      simp only [showItems, Tend.bind_apply, Tend.create_apply, Tend.record_apply, Tend.pure_apply,
        List.nil_append, List.append_nil]
      exact first.append others
    | cons plot plots =>
      simp only [showItems, Tend.bind_apply, Tend.pure_apply, List.append_nil]
      exact (spares parent plot value next).append (ih plots _)

theorem spares_showList (parent : NodeId) (plot : Plot) (values : List Value) (next : Nat) :
    let harvest := plot.showList update parent values next
    Sparing next harvest.next harvest.deeds plot.tract harvest.result.tract
      (plot.matched harvest.result) (harvest.result.matched plot)
      (plot.unmatched harvest.result) := by
  -- Unless a list was shown before, all items are new.
  have anew : Sparing next (showItems update parent [] values next).next
      (plot.clearing ++ (showItems update parent [] values next).deeds) plot.tract
      (items plot.anchor (showItems update parent [] values next).result).tract [plot.anchor]
      [plot.anchor] plot.grove.nodes.tail := by
    have others := spares_showItems spares parent [] values next
    dsimp only at others
    rw [matchedAll_nil_right] at others
    have both := (plot.spares_clearing next).append others
    have nothing : tracts [] = .empty := rfl
    have none : unmatchedAll [] (showItems update parent [] values next).result = [] := rfl
    rw [nothing, Tract.append_empty, none, List.append_nil, List.append_nil] at both
    exact both
  cases plot with
  | text anchor shown => exact anew
  | nested anchor template bed => exact anew
  | items anchor plots =>
    have kept := Sparing.anchor next anchor "" ""
    rw [writing_self] at kept
    exact kept.append (spares_showItems spares parent plots values next)

end

/-- Whatever a plot is tended with, its matched positions are spared. -/
theorem spares_tend (layout : Template → Stencil) (room : Nat) : (tend layout room).Spares := by
  induction room with
  | zero => exact fun parent plot value next => plot.spares_showText "" next
  | succ room ih =>
    intro parent plot value next
    cases value with
    | template template values => exact spares_showTemplate ih parent plot template values next
    | items values => exact spares_showList ih parent plot values next
    | _ => exact plot.spares_showText _ next

end Plot

end LiveMarkup
