import LiveMarkup.Proofs.Planting.Renumbering
import LiveMarkup.Proofs.Planting.States

/-! # The same container in two renderers

Two renderers may have the same in a container (`Renderer.SameIn`), or the same but for the numbers of
the nodes (`Renderer.MatchesIn`).  For a bed that has been given other numbers, both what is remembered
of it and what the document has of it match. -/

namespace LiveMarkup

open Document Markup

variable {σ : Type}

/-! ## Other numbers for what is remembered -/

section

variable (rename : NodeId → NodeId)

def Cell.renumber (cell : Cell) : Cell :=
  ⟨cell.data, cell.parent.map rename, cell.children.map rename⟩

mutual

def Instance.renumber : Instance σ → Instance σ
  | .mk template roots bindings =>
    .mk template (roots.map rename) (Binding.renumberAll bindings)

def Binding.renumber : Binding σ → Binding σ
  | .attribute binding => .attribute { binding with element := rename binding.element }
  | .outlet outlet => .outlet (Outlet.renumber outlet)

def Binding.renumberAll : List (Binding σ) → List (Binding σ)
  | [] => []
  | binding :: bindings => Binding.renumber binding :: Binding.renumberAll bindings

def Outlet.renumber : Outlet σ → Outlet σ
  | .vacant anchor => .vacant (rename anchor)
  | .text anchor data => .text (rename anchor) data
  | .nested anchor inner => .nested (rename anchor) (Instance.renumber inner)
  | .items anchor outlets => .items (rename anchor) (Outlet.renumberAll outlets)

def Outlet.renumberAll : List (Outlet σ) → List (Outlet σ)
  | [] => []
  | outlet :: outlets => Outlet.renumber outlet :: Outlet.renumberAll outlets

end

end

variable {rename : NodeId → NodeId}

theorem Binding.renumberAll_append (bindings more : List (Binding σ)) :
    Binding.renumberAll rename (bindings ++ more) =
      Binding.renumberAll rename bindings ++ Binding.renumberAll rename more := by
  induction bindings with
  | nil => rfl
  | cons binding bindings ih => exact congrArg _ ih

mutual

theorem Bed.bindings_renumber : ∀ bed : Bed,
    ((bed.renumber rename).bindings : List (Binding σ)) = Binding.renumberAll rename bed.bindings
  | .done => rfl
  | .element node _ _ _ _ fixtures below rest => by
    have own : fixtures.map (fun fixture => Binding.attribute (fixture.binding (rename node))) =
        Binding.renumberAll rename
          (fixtures.map fun fixture => (Binding.attribute (fixture.binding node) : Binding σ)) := by
      induction fixtures with
      | nil => rfl
      | cons fixture fixtures ih => exact congrArg _ ih
    simp only [Bed.renumber, Bed.bindings, Binding.renumberAll_append]
    rw [own, below.bindings_renumber, rest.bindings_renumber]
  | .text _ _ rest | .comment _ _ rest => rest.bindings_renumber
  | .gap plot rest => by
    rw [Bed.renumber, Bed.bindings, plot.outlet_renumber, rest.bindings_renumber]
    rfl

theorem Plot.outlet_renumber : ∀ plot : Plot,
    ((plot.renumber rename).outlet : Outlet σ) = Outlet.renumber rename plot.outlet
  | .text anchor data => by
    rw [Plot.renumber, Plot.outlet, Plot.outlet]
    split <;> rfl
  | .nested anchor template bed => by
    rw [Plot.renumber, Plot.outlet, bed.bindings_renumber, bed.roots_renumber]
    rfl
  | .items anchor plots => by
    rw [Plot.renumber, Plot.outlet, Plot.outlets_renumberAll plots]
    rfl

theorem Plot.outlets_renumberAll : ∀ plots : List Plot,
    (Plot.outlets (Plot.renumberAll rename plots) : List (Outlet σ)) =
      Outlet.renumberAll rename (Plot.outlets plots)
  | [] => rfl
  | plot :: plots => by
    rw [Plot.renumberAll, Plot.outlets, plot.outlet_renumber, Plot.outlets_renumberAll plots]
    rfl

end

theorem Bed.instance_renumber (bed : Bed) (template : Template) :
    ((bed.renumber rename).instance template : Instance σ) =
      (bed.instance template).renumber rename := by
  rw [Bed.instance, bed.bindings_renumber, bed.roots_renumber]
  rfl

/-- A grove and one with other numbers look alike, node by node. -/
theorem Grove.Bears.cell?_renumber {document other : Document} {parent : Option NodeId}
    {grove : Grove} (bears : grove.Bears document parent)
    (also : (grove.renumber rename).Bears other (parent.map rename)) :
    ∀ node ∈ grove.nodes,
      other.cell? (rename node) = (document.cell? node).map (Cell.renumber rename) := by
  induction grove generalizing parent with
  | nil => nofun
  | cons first data below rest ihBelow ihRest =>
    obtain ⟨cell, inside, behind⟩ := bears
    obtain ⟨cell', inside', behind'⟩ := also
    intro node member
    rw [nodes_cons, List.mem_cons, List.mem_append] at member
    obtain rfl | member | member := member
    · rw [cell, cell', roots_renumber]
      rfl
    · exact ihBelow inside inside' node member
    · exact ihRest behind behind' node member

/-- A bed that is prepared in the same container of two documents is the same, but for the numbers of
the nodes that are created. -/
theorem Prepared.renumbers {container : NodeId} {previous : Option (Instance σ)} {old : Option Bed}
    {owned owned' : NodeId → Prop} {template : Template} {stencil : Stencil}
    {document document' after after' : Document} {bed bed' : Bed}
    (prepared : Prepared container previous old owned template stencil document bed after)
    (prepared' : Prepared container previous old owned' template stencil document' bed' after') :
    document.size ≤ after.size ∧ ∀ rename : NodeId → NodeId,
      (∀ bed, old = some bed → ∀ node ∈ bed.grove.nodes, rename node = node) →
      Shifts rename document.size after.size document'.size →
        bed' = bed.renumber rename ∧
          after'.size = document'.size + (after.size - document.size) := by
  refine ⟨prepared.moves.grows, fun rename fixed shifts => ?_⟩
  by_cases kept : ∃ inner, previous = some inner ∧ inner.template = template
  · obtain ⟨inner, held, same⟩ := kept
    obtain ⟨rfl, -, there⟩ := prepared.kept inner held same
    obtain ⟨rfl, -, there'⟩ := prepared'.kept inner held same
    obtain rfl := Option.some.inj (there.symm.trans there')
    exact ⟨(Bed.renumber_eq_self (fixed bed there)).symm, by simp⟩
  · have other : ∀ inner, previous = some inner → inner.template ≠ template :=
      fun inner held same => kept ⟨inner, held, same⟩
    obtain ⟨rfl, size⟩ := prepared.sown other
    obtain ⟨rfl, size'⟩ := prepared'.sown other
    have sows : Tend.Renames rename (Bed.renumber rename) (stencil.sow none [] 0) _ :=
      stencil.renames_sow none [] 0
    rw [size] at shifts
    obtain ⟨results, nexts, -⟩ := (sows document.size).2 document'.size shifts
    exact ⟨results, by rw [size', size]; exact nexts⟩

/-! ## The same container -/

/-- What is inside of a node exists. -/
theorem Document.Inside.has {document : Document} (sound : document.Sound) {node below : NodeId}
    (inside : document.Inside node below) : document.Has below := by
  have child {parent : NodeId} (member : below ∈ document.children parent) :
      document.Has below := by
    by_contra unknown
    have placed := sound parent below member
    rw [Document.parent, cell?_eq_none_iff.mpr unknown] at placed
    cases placed
  cases inside with
  | child member => exact child member
  | deeper _ member => exact child member

theorem Document.children_congr {document after : Document} {node : NodeId}
    (same : after.cell? node = document.cell? node) :
    after.children node = document.children node := by
  unfold Document.children
  rw [same]

namespace Renderer

variable {renderer other third : Renderer σ} {container node : NodeId}

/-- Two renderers have the same in a container: the same instance, the same link to the parent, and
the same tree. -/
structure SameIn (container : NodeId) (renderer other : Renderer σ) : Prop where
  held : other.instance? container = renderer.instance? container
  cell : other.stage.document.cell? container = renderer.stage.document.cell? container
  inside : ∀ node, renderer.stage.document.Inside container node →
    other.stage.document.cell? node = renderer.stage.document.cell? node

/-- Two renderers have the same in a container, but for the numbers of the nodes inside of it. -/
structure MatchesIn (rename : NodeId → NodeId) (container : NodeId) (renderer other : Renderer σ) :
    Prop where
  held : other.instance? container =
    (renderer.instance? container).map (Instance.renumber rename)
  data : other.stage.document.data? container = renderer.stage.document.data? container
  parent : other.stage.document.parent container = renderer.stage.document.parent container
  children : other.stage.document.children container =
    (renderer.stage.document.children container).map rename
  inside : ∀ node, renderer.stage.document.Inside container node →
    other.stage.document.cell? (rename node) =
      (renderer.stage.document.cell? node).map (Cell.renumber rename)

namespace SameIn

/-- The same nodes are inside of the container. -/
theorem inside_iff (same : SameIn container renderer other) :
    other.stage.document.Inside container node ↔ renderer.stage.document.Inside container node := by
  have children := children_congr same.cell
  constructor
  · intro inside
    induction inside with
    | child below => exact .child (children ▸ below)
    | deeper _ below within => exact .deeper within (children_congr (same.inside _ within) ▸ below)
  · intro inside
    induction inside with
    | child below => exact .child (children.symm ▸ below)
    | deeper outside below within =>
      exact .deeper within ((children_congr (same.inside _ outside)).symm ▸ below)

theorem symm (same : SameIn container renderer other) : SameIn container other renderer :=
  ⟨same.held.symm, same.cell.symm, fun node within =>
    (same.inside node (same.inside_iff.mp within)).symm⟩

/-- What lives in the container does so in both. -/
theorem dwells (same : SameIn container renderer other) {grove : Grove}
    (dwells : Dwells renderer.stage.document container grove) :
    Dwells other.stage.document container grove := by
  obtain ⟨data, outer, site⟩ := dwells
  refine ⟨data, outer, same.cell.trans site.cell, site.bears.congr fun node member => ?_, ?_, site.once⟩
  · exact same.inside node (Dwells.inside_iff ⟨data, outer, site⟩ |>.mpr member)
  · simp [Place.inside]

/-- Nodes that keep their numbers match. -/
theorem matchesIn (same : SameIn container renderer other)
    (sound : renderer.stage.document.Sound) (vacant : renderer.instance? container = none)
    (fixed : ∀ node, renderer.stage.document.Inside container node → rename node = node)
    (stays : rename container = container) : MatchesIn rename container renderer other := by
  -- All that the cells inside refer to is inside or the container, and so keeps its number.
  have children {node : NodeId}
      (around : node = container ∨ renderer.stage.document.Inside container node) :
      (renderer.stage.document.children node).map rename =
        renderer.stage.document.children node := by
    refine (List.map_congr_left fun child below => fixed child ?_).trans (List.map_id _)
    obtain rfl | within := around
    · exact .child below
    · exact .deeper within below
  have parent {node : NodeId} (within : renderer.stage.document.Inside container node) :
      (renderer.stage.document.parent node).map rename = renderer.stage.document.parent node := by
    cases within with
    | child below => rw [sound _ _ below, Option.map_some, stays]
    | deeper within below => rw [sound _ _ below, Option.map_some, fixed _ within]
  constructor
  case held => rw [same.held, vacant, Option.map_none]
  case data => rw [Document.data?, same.cell, Document.data?]
  case parent => rw [Document.parent, same.cell, Document.parent]
  case children => rw [children (.inl rfl), children_congr same.cell]
  case inside =>
    intro node within
    rw [fixed node within, same.inside node within]
    cases found : renderer.stage.document.cell? node with
    | none => rfl
    | some cell =>
      have kept := children (.inr within)
      have above := parent within
      rw [children_of_cell? found] at kept
      rw [parent_of_cell? found] at above
      rw [Option.map_some, Cell.renumber, kept, above]

end SameIn

namespace MatchesIn

/-- What is inside of a container goes on to be so with another number. -/
theorem inside_rename (matched : MatchesIn rename container renderer other)
    (within : renderer.stage.document.Inside container node) :
    other.stage.document.Inside container (rename node) := by
  induction within with
  | child below =>
    refine .child ?_
    rw [matched.children]
    exact List.mem_map_of_mem below
  | @deeper between _ outside below within =>
    refine .deeper within ?_
    have cell := matched.inside between outside
    cases found : renderer.stage.document.cell? between with
    | none => simp [Document.children, found] at below
    | some inner =>
      rw [children_of_cell? found] at below
      rw [found] at cell
      rw [children_of_cell? cell]
      exact List.mem_map_of_mem below

theorem sameIn_left (matched : MatchesIn rename container renderer other)
    (same : SameIn container renderer third) : MatchesIn rename container third other := by
  constructor
  case held => rw [matched.held, same.held]
  case data => rw [matched.data, Document.data?, Document.data?, same.cell]
  case parent => rw [matched.parent, Document.parent, Document.parent, same.cell]
  case children => rw [matched.children, children_congr same.cell]
  case inside =>
    intro node within
    have earlier := same.inside_iff.mp within
    rw [matched.inside node earlier, same.inside node earlier]

theorem sameIn_right (matched : MatchesIn rename container renderer other)
    (same : SameIn container other third) : MatchesIn rename container renderer third := by
  constructor
  case held => rw [same.held, matched.held]
  case data => rw [← matched.data, Document.data?, Document.data?, same.cell]
  case parent => rw [← matched.parent, Document.parent, Document.parent, same.cell]
  case children => rw [children_congr same.cell, matched.children]
  case inside =>
    intro node within
    rw [same.inside _ (matched.inside_rename within), matched.inside node within]

/-- Two groves in a container, of which one has other numbers, match. -/
theorem of_sites {grove : Grove} {data : NodeData} {outer : Option NodeId}
    (held : other.instance? container =
      (renderer.instance? container).map (Instance.renumber rename))
    (site : Site renderer.stage.document (.inside container data outer) grove)
    (site' : Site other.stage.document (.inside container data outer) (grove.renumber rename))
    (stays : rename container = container) : MatchesIn rename container renderer other := by
  have cell : renderer.stage.document.cell? container = _ := site.cell
  have cell' : other.stage.document.cell? container = _ := site'.cell
  constructor
  case held => exact held
  case data => rw [data?_of_cell? cell, data?_of_cell? cell']
  case parent => rw [parent_of_cell? cell, parent_of_cell? cell']
  case children =>
    rw [children_of_cell? cell, children_of_cell? cell']
    simp [Place.inside]
  case inside =>
    intro node within
    have member := (Dwells.inside_iff ⟨data, outer, site⟩).mp within
    have bears : grove.Bears renderer.stage.document (some container) := site.bears
    refine bears.cell?_renumber ?_ node member
    rw [Option.map_some, stays]
    exact site'.bears

end MatchesIn

end Renderer

end LiveMarkup
