import LiveMarkup.Proofs.Planting.States

/-! # Matched positions

Two beds in one place, before and after an update, have positions in common: the nodes of the template
itself, what is nested in a gap if it is of the same template both times, and the items that a list has
both times.  All of this within matched positions only.

Which nodes of a document are kept by a change is told by `Grove.Spliced`: the one grove has the kept
nodes of the other one in the same places, whatever comes between them. -/

namespace LiveMarkup

open Document Markup

/-! ## Positions -/

mutual

/-- The nodes of a bed in the positions that are matched by another bed. -/
def Bed.matched : Bed → Bed → List NodeId
  | .element node _ _ _ _ _ below rest, .element _ _ _ _ _ _ below' rest' =>
    node :: (below.matched below' ++ rest.matched rest')
  | .text node _ rest, .text _ _ rest' => node :: rest.matched rest'
  | .comment node _ rest, .comment _ _ rest' => node :: rest.matched rest'
  | .gap plot rest, .gap plot' rest' => plot.matched plot' ++ rest.matched rest'
  | _, _ => []

def Plot.matched : Plot → Plot → List NodeId
  | .nested anchor template bed, .nested _ template' bed' =>
    anchor :: if template = template' then bed.matched bed' else []
  | .items anchor plots, .items _ plots' => anchor :: Plot.matchedAll plots plots'
  | plot, _ => [plot.anchor]

def Plot.matchedAll : List Plot → List Plot → List NodeId
  | plot :: plots, plot' :: plots' => plot.matched plot' ++ Plot.matchedAll plots plots'
  | _, _ => []

end

mutual

/-- The nodes of a bed in the positions that are not matched by another bed. -/
def Bed.unmatched : Bed → Bed → List NodeId
  | .element _ _ _ _ _ _ below rest, .element _ _ _ _ _ _ below' rest' =>
    below.unmatched below' ++ rest.unmatched rest'
  | .text _ _ rest, .text _ _ rest' => rest.unmatched rest'
  | .comment _ _ rest, .comment _ _ rest' => rest.unmatched rest'
  | .gap plot rest, .gap plot' rest' => plot.unmatched plot' ++ rest.unmatched rest'
  | bed, _ => bed.grove.nodes

def Plot.unmatched : Plot → Plot → List NodeId
  | .nested _ template bed, .nested _ template' bed' =>
    if template = template' then bed.unmatched bed' else bed.grove.nodes
  | .items _ plots, .items _ plots' => Plot.unmatchedAll plots plots'
  | plot, _ => plot.grove.nodes.tail

def Plot.unmatchedAll : List Plot → List Plot → List NodeId
  | plot :: plots, plot' :: plots' => plot.unmatched plot' ++ Plot.unmatchedAll plots plots'
  | plots, _ => (Plot.groves plots).nodes

end

mutual

/-- The anchors in a bed with the texts that they show. -/
def Bed.texts : Bed → List (NodeId × String)
  | .done => []
  | .element _ _ _ _ _ _ below rest => below.texts ++ rest.texts
  | .text _ _ rest | .comment _ _ rest => rest.texts
  | .gap plot rest => plot.texts ++ rest.texts

def Plot.texts : Plot → List (NodeId × String)
  | .text anchor data => [(anchor, data)]
  | .nested anchor _ bed => (anchor, "") :: bed.texts
  | .items anchor plots => (anchor, "") :: Plot.allTexts plots

def Plot.allTexts : List Plot → List (NodeId × String)
  | [] => []
  | plot :: plots => plot.texts ++ Plot.allTexts plots

end

mutual

/-- The elements in a bed with the names of their dynamic attributes. -/
def Bed.bound : Bed → List (NodeId × String)
  | .done => []
  | .element node _ _ _ _ fixtures below rest =>
    fixtures.map (fun fixture => (node, fixture.part.name)) ++ below.bound ++ rest.bound
  | .text _ _ rest | .comment _ _ rest => rest.bound
  | .gap plot rest => plot.bound ++ rest.bound

def Plot.bound : Plot → List (NodeId × String)
  | .text _ _ => []
  | .nested _ _ bed => bed.bound
  | .items _ plots => Plot.allBound plots

def Plot.allBound : List Plot → List (NodeId × String)
  | [] => []
  | plot :: plots => plot.bound ++ Plot.allBound plots

end

/-- The anchors in a bed. -/
def Bed.anchors (bed : Bed) : List NodeId :=
  bed.texts.map Prod.fst

/-! ## Kept nodes -/

/-- The second grove has the nodes to be kept in the same places as the first one. -/
inductive Grove.Spliced (keep : NodeId → Prop) : Grove → Grove → Prop where
  | nil : Spliced keep .nil .nil
  | kept {node : NodeId} {data data' : NodeData} {below below' rest rest' : Grove}
      (inside : Spliced keep below below') (after : Spliced keep rest rest') :
      Spliced keep (.cons node data below rest) (.cons node data' below' rest')
  | lost {node : NodeId} {data : NodeData} {below rest grown : Grove}
      (away : ∀ other ∈ node :: below.nodes, ¬ keep other) (after : Spliced keep rest grown) :
      Spliced keep (.cons node data below rest) grown
  | gained {node : NodeId} {data : NodeData} {below rest grove : Grove}
      (away : ∀ other ∈ node :: below.nodes, ¬ keep other) (after : Spliced keep grove rest) :
      Spliced keep grove (.cons node data below rest)

namespace Grove.Spliced

variable {keep : NodeId → Prop} {grove grown front back : Grove} {before after : Document}

theorem append (first : Spliced keep grove grown) (second : Spliced keep front back) :
    Spliced keep (grove ++ front) (grown ++ back) := by
  induction first with
  | nil => exact second
  | kept inside _ _ ih => exact .kept inside ih
  | lost away _ ih => exact .lost away ih
  | gained away _ ih => exact .gained away ih

theorem of_lost (away : ∀ node ∈ grove.nodes, ¬ keep node) : Spliced keep grove .nil := by
  induction grove with
  | nil => exact .nil
  | cons node data below rest _ ih =>
    simp only [nodes_cons, List.mem_cons, List.mem_append] at away
    refine .lost (fun other member => away other ?_) (ih fun other member => away other ?_)
    · exact (List.mem_cons.mp member).imp_right .inl
    · exact .inr (.inr member)

theorem of_gained (away : ∀ node ∈ grown.nodes, ¬ keep node) : Spliced keep .nil grown := by
  induction grown with
  | nil => exact .nil
  | cons node data below rest _ ih =>
    simp only [nodes_cons, List.mem_cons, List.mem_append] at away
    refine .gained (fun other member => away other ?_) (ih fun other member => away other ?_)
    · exact (List.mem_cons.mp member).imp_right .inl
    · exact .inr (.inr member)

/-- The roots that are kept stay in their order. -/
theorem roots [DecidablePred keep] (spliced : Spliced keep grove grown) :
    grown.roots.filter (fun node => keep node) = grove.roots.filter (fun node => keep node) := by
  induction spliced with
  | nil => rfl
  | kept _ _ _ ih => simp only [roots_cons, List.filter_cons, ih]
  | lost away _ ih =>
    rw [roots_cons, List.filter_cons_of_neg (by simpa using away _ List.mem_cons_self), ih]
  | gained away _ ih =>
    rw [roots_cons, List.filter_cons_of_neg (by simpa using away _ List.mem_cons_self), ih]

/-- A kept node has the same parent in both groves.  Unless that is the node around them, it has the
same kept children, too. -/
theorem parent [DecidablePred keep] (spliced : Spliced keep grove grown) {around : NodeId}
    (bears : grove.Bears before (some around)) (bearsAfter : grown.Bears after (some around))
    {node : NodeId} (member : node ∈ grove.nodes) (kept : keep node) :
    ∃ above, before.parent node = some above ∧ after.parent node = some above ∧
      (above = around ∨ (after.children above).filter (fun child => keep child) =
        (before.children above).filter fun child => keep child) := by
  induction spliced generalizing around with
  | nil => cases member
  | @kept root data data' below below' rest rest' inside _ ihBelow ihRest =>
    obtain ⟨cell, bearsBelow, bearsRest⟩ := bears
    obtain ⟨cell', bearsBelow', bearsRest'⟩ := bearsAfter
    rw [nodes_cons, List.mem_cons, List.mem_append] at member
    obtain rfl | member | member := member
    · exact ⟨around, parent_of_cell? cell, parent_of_cell? cell', .inl rfl⟩
    · obtain ⟨above, here, there, rfl | same⟩ := ihBelow bearsBelow bearsBelow' member
      · refine ⟨above, here, there, .inr ?_⟩
        rw [children_of_cell? cell, children_of_cell? cell']
        exact inside.roots
      · exact ⟨above, here, there, .inr same⟩
    · exact ihRest bearsRest bearsRest' member
  | lost away _ ih =>
    rw [nodes_cons, ← List.cons_append, List.mem_append] at member
    obtain member | member := member
    · exact absurd kept (away node member)
    · exact ih bears.2.2 bearsAfter member
  | gained away _ ih => exact ih bears bearsAfter.2.2 member

end Grove.Spliced

end LiveMarkup
