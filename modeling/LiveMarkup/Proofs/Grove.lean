import LiveMarkup.Document.View
import LiveMarkup.Proofs.Moves
import Mathlib.Data.List.Nodup
import Mathlib.Data.List.Perm.Subperm

/-! # Groves

A grove is a forest whose nodes have their numbers in a document.  `Site` says that a document has a
grove among the children of a node, at a given place, and `Regrown` that a change of the document has
put another grove there and left everything else alone.

Rules carry `Regrown` outwards: from a grove to one with more siblings on its left or right, and to
one around it. -/

namespace LiveMarkup

open Markup

/-- A node with the given children. -/
def NodeData.node (data : NodeData) (children : Forest) : Node :=
  match data with
  | .element name space attributes => .element name space attributes children
  | .text data => .text data
  | .comment data => .comment data

/-- Sibling trees, as a first tree, given by its root and what is below it, and the rest. -/
inductive Grove where
  | nil
  | cons (node : NodeId) (data : NodeData) (below rest : Grove)

namespace Grove

def append : Grove → Grove → Grove
  | nil, other => other
  | cons node data below rest, other => cons node data below (append rest other)

instance : Append Grove :=
  ⟨append⟩

def roots : Grove → List NodeId
  | nil => []
  | cons node _ _ rest => node :: roots rest

def nodes : Grove → List NodeId
  | nil => []
  | cons node _ below rest => node :: (nodes below ++ nodes rest)

def forest : Grove → Forest
  | nil => []
  | cons _ data below rest => data.node (forest below) :: forest rest

/-- One node without anything below it. -/
def leaf (node : NodeId) (data : NodeData) : Grove :=
  cons node data nil nil

section

variable (grove other third : Grove) (node : NodeId) (data : NodeData) (below : Grove)

@[simp] theorem nil_append : nil ++ other = other :=
  rfl

@[simp] theorem cons_append : cons node data below grove ++ other =
    cons node data below (grove ++ other) :=
  rfl

@[simp] theorem append_nil : grove ++ nil = grove := by
  induction grove with
  | nil => rfl
  | cons _ _ _ rest _ ih => simp [ih]

theorem append_assoc : grove ++ other ++ third = grove ++ (other ++ third) := by
  induction grove with
  | nil => rfl
  | cons _ _ _ rest _ ih => simp [ih]

@[simp] theorem roots_nil : nil.roots = [] :=
  rfl

@[simp] theorem roots_cons : (cons node data below grove).roots = node :: grove.roots :=
  rfl

@[simp] theorem roots_append : (grove ++ other).roots = grove.roots ++ other.roots := by
  induction grove with
  | nil => rfl
  | cons _ _ _ rest _ ih => simp [ih]

@[simp] theorem roots_leaf : (leaf node data).roots = [node] :=
  rfl

@[simp] theorem nodes_nil : nil.nodes = [] :=
  rfl

@[simp] theorem nodes_cons :
    (cons node data below grove).nodes = node :: (below.nodes ++ grove.nodes) :=
  rfl

@[simp] theorem nodes_append : (grove ++ other).nodes = grove.nodes ++ other.nodes := by
  induction grove with
  | nil => rfl
  | cons _ _ _ rest _ ih => simp [ih]

@[simp] theorem nodes_leaf : (leaf node data).nodes = [node] :=
  rfl

@[simp] theorem forest_nil : nil.forest = [] :=
  rfl

@[simp] theorem forest_cons :
    (cons node data below grove).forest = data.node below.forest :: grove.forest :=
  rfl

@[simp] theorem forest_append : (grove ++ other).forest = grove.forest ++ other.forest := by
  induction grove with
  | nil => rfl
  | cons _ _ _ rest _ ih => simp [ih]

@[simp] theorem forest_leaf : (leaf node data).forest = [data.node []] :=
  rfl

end

theorem mem_nodes_of_mem_roots {grove : Grove} {node : NodeId} (root : node ∈ grove.roots) :
    node ∈ grove.nodes := by
  induction grove with
  | nil => exact root
  | cons first data below rest _ ih =>
    obtain rfl | later := List.mem_cons.mp root
    · exact List.mem_cons_self
    · exact List.mem_cons_of_mem _ (List.mem_append_right _ (ih later))

theorem roots_sublist_nodes (grove : Grove) : grove.roots.Sublist grove.nodes := by
  induction grove with
  | nil => exact .slnil
  | cons _ _ below rest _ ih => exact (ih.trans (List.sublist_append_right _ _)).cons_cons _

/-! ## Groves in documents -/

/-- Whether the document has exactly the grove below some parent, or below none. -/
def Bears (document : Document) (parent : Option NodeId) : Grove → Prop
  | nil => True
  | cons node data below rest =>
    document.cell? node = some ⟨data, parent, below.roots⟩ ∧
      Bears document (some node) below ∧ Bears document parent rest

variable {document after : Document} {parent : Option NodeId} {grove other : Grove} {node : NodeId}

@[simp] theorem bears_append :
    (grove ++ other).Bears document parent ↔
      grove.Bears document parent ∧ other.Bears document parent := by
  induction grove with
  | nil => simp [Bears]
  | cons _ _ _ rest _ ih => simp [Bears, ih, and_assoc]

theorem Bears.has (bears : grove.Bears document parent) (member : node ∈ grove.nodes) :
    document.Has node := by
  induction grove generalizing parent with
  | nil => cases member
  | cons first data below rest ihBelow ihRest =>
    obtain ⟨cell, inside, behind⟩ := bears
    rw [nodes_cons, List.mem_cons, List.mem_append] at member
    obtain rfl | member | member := member
    · exact Document.has_of_cell? cell
    · exact ihBelow inside member
    · exact ihRest behind member

theorem Bears.parent_of_root (bears : grove.Bears document parent) (root : node ∈ grove.roots) :
    document.parent node = parent := by
  induction grove with
  | nil => cases root
  | cons first data below rest _ ih =>
    obtain rfl | later := List.mem_cons.mp root
    · exact Document.parent_of_cell? bears.1
    · exact ih bears.2.2 later

/-- Groves depend on the cells of their nodes only. -/
theorem Bears.congr (bears : grove.Bears document parent)
    (same : ∀ node ∈ grove.nodes, after.cell? node = document.cell? node) :
    grove.Bears after parent := by
  induction grove generalizing parent with
  | nil => trivial
  | cons first data below rest ihBelow ihRest =>
    obtain ⟨cell, inside, behind⟩ := bears
    refine ⟨?_, ihBelow inside fun node member => ?_, ihRest behind fun node member => ?_⟩
    · rw [same first (by simp), cell]
    · exact same node (by simp [member])
    · exact same node (by simp [member])

theorem Bears.moves (bears : grove.Bears document parent) {owned : NodeId → Prop}
    (moves : document.Moves owned after) (free : ∀ node ∈ grove.nodes, ¬ owned node) :
    grove.Bears after parent :=
  bears.congr fun node member => moves.kept node (bears.has member) (free node member)

/-- A view deep enough shows a grove as its forest. -/
theorem Bears.map_treeTo (bears : grove.Bears document parent) {levels : Nat}
    (deep : grove.nodes.length ≤ levels) :
    grove.roots.map (document.treeTo levels) = grove.forest := by
  induction grove generalizing parent levels with
  | nil => rfl
  | cons node data below rest ihBelow ihRest =>
    obtain ⟨cell, inside, behind⟩ := bears
    simp only [nodes_cons, List.length_cons, List.length_append] at deep
    obtain _ | levels := levels
    · omega
    have first : document.treeTo (levels + 1) node = data.node below.forest := by
      have kids : below.roots.map (document.treeTo levels) = below.forest :=
        ihBelow inside (by omega)
      cases data <;> simp [Document.treeTo, cell, NodeData.node, kids]
    rw [roots_cons, List.map_cons, first, ihRest behind (by omega), forest_cons]

theorem Bears.length_nodes_le (bears : grove.Bears document parent) (once : grove.nodes.Nodup) :
    grove.nodes.length ≤ document.size := by
  have numbers : (grove.nodes.map NodeId.number).Nodup :=
    once.map fun first second same => by
      cases first
      cases second
      exact congrArg NodeId.mk same
  have within : grove.nodes.map NodeId.number ⊆ List.range document.size := by
    intro number member
    obtain ⟨node, inside, rfl⟩ := List.mem_map.mp member
    exact List.mem_range.mpr (bears.has inside)
  simpa using (List.subperm_of_subset numbers within).length_le

end Grove

/-! ## Places -/

/-- A place among the children of a node, which is given with its data and its own parent. -/
structure Place where
  parent : NodeId
  data : NodeData
  outer : Option NodeId
  before : List NodeId
  behind : List NodeId

namespace Place

/-- Further on, behind more siblings. -/
def past (place : Place) (nodes : List NodeId) : Place :=
  { place with before := place.before ++ nodes }

/-- The same place when more siblings come behind it. -/
def facing (place : Place) (nodes : List NodeId) : Place :=
  { place with behind := nodes ++ place.behind }

/-- All there is inside of a node. -/
def inside (node : NodeId) (data : NodeData) (outer : Option NodeId) : Place :=
  { parent := node, data, outer, before := [], behind := [] }

end Place

/-- A document has a grove at a place. -/
structure Site (document : Document) (place : Place) (grove : Grove) : Prop where
  cell : document.cell? place.parent =
    some ⟨place.data, place.outer, place.before ++ grove.roots ++ place.behind⟩
  bears : grove.Bears document (some place.parent)
  around : ∀ node ∈ place.before ++ place.behind, document.Has node
  once : (place.parent :: (place.before ++ grove.nodes ++ place.behind)).Nodup

/-- Other nodes in the midst of a list, each of them an old one or not in the list. -/
theorem nodup_replace (front old new back : List NodeId) (once : (front ++ old ++ back).Nodup)
    (distinct : new.Nodup) (fresh : ∀ node ∈ new, node ∈ old ∨ node ∉ front ++ back) :
    (front ++ new ++ back).Nodup := by
  rw [List.append_assoc, List.nodup_append', List.nodup_append'] at once ⊢
  obtain ⟨onceFront, ⟨onceOld, onceBack, oldBack⟩, frontOld⟩ := once
  rw [List.disjoint_append_right] at frontOld ⊢
  refine ⟨onceFront, ⟨distinct, onceBack, ?_⟩, ?_, frontOld.2⟩
  · intro node inNew inBack
    obtain inOld | out := fresh node inNew
    · exact oldBack inOld inBack
    · exact out (List.mem_append_right _ inBack)
  · intro node inFront inNew
    obtain inOld | out := fresh node inNew
    · exact frontOld.1 inFront inOld
    · exact out (List.mem_append_left _ inFront)

namespace Site

variable {document after : Document} {place : Place} {grove other below rest : Grove}
  {node : NodeId} {data : NodeData}

theorem has (site : Site document place grove) (member : node ∈ grove.nodes) :
    document.Has node :=
  site.bears.has member

theorem has_parent (site : Site document place grove) : document.Has place.parent :=
  Document.has_of_cell? site.cell

theorem nodup_nodes (site : Site document place grove) : grove.nodes.Nodup :=
  site.once.of_cons.sublist
    ((List.sublist_append_right _ _).trans (List.sublist_append_left _ _))

theorem parent_notMem (site : Site document place grove) : place.parent ∉ grove.nodes := by
  intro member
  exact (List.nodup_cons.mp site.once).1 (by simp [member])

theorem notMem_of_mem_around (site : Site document place grove)
    (member : node ∈ place.before ++ place.behind) : node ∉ grove.nodes := by
  have once := site.once.of_cons
  rw [List.append_assoc, List.nodup_append', List.disjoint_append_right] at once
  obtain ⟨-, inner, before, -⟩ := once
  intro inside
  obtain member | member := List.mem_append.mp member
  · exact before member inside
  · exact (List.nodup_append'.mp inner).2.2 inside member

/-- The first of two groves next to each other. -/
theorem left (site : Site document place (grove ++ other)) :
    Site document (place.facing other.roots) grove where
  cell := by simpa [Place.facing] using site.cell
  bears := (Grove.bears_append.mp site.bears).1
  around := by
    intro node member
    simp only [Place.facing, List.mem_append] at member
    obtain member | member | member := member
    · exact site.around node (by simp [member])
    · exact site.has (by simp [Grove.mem_nodes_of_mem_roots member])
    · exact site.around node (by simp [member])
  once := by
    have once := site.once
    rw [Grove.nodes_append] at once
    refine once.sublist (.cons_cons _ ?_)
    simp only [Place.facing, List.append_assoc]
    exact .append_left (.append_left (.append_right other.roots_sublist_nodes _) _) _

/-- The second of two groves next to each other. -/
theorem right (site : Site document place (grove ++ other)) :
    Site document (place.past grove.roots) other where
  cell := by simpa [Place.past] using site.cell
  bears := (Grove.bears_append.mp site.bears).2
  around := by
    intro node member
    simp only [Place.past, List.mem_append] at member
    obtain (member | member) | member := member
    · exact site.around node (by simp [member])
    · exact site.has (by simp [Grove.mem_nodes_of_mem_roots member])
    · exact site.around node (by simp [member])
  once := by
    have once := site.once
    rw [Grove.nodes_append] at once
    refine once.sublist (.cons_cons _ ?_)
    simp only [Place.past, List.append_assoc]
    exact .append_left (.append_right grove.roots_sublist_nodes _) _

/-- What follows the first tree of a grove. -/
theorem tail (site : Site document place (.cons node data below rest)) :
    Site document (place.past [node]) rest :=
  have joined : Site document place (.cons node data below .nil ++ rest) := site
  joined.right

/-- What is below the first node of a grove. -/
theorem inside (site : Site document place (.cons node data below rest)) :
    Site document (.inside node data (some place.parent)) below where
  cell := by simpa [Place.inside] using site.bears.1
  bears := site.bears.2.1
  around := by simp [Place.inside]
  once := by
    refine site.nodup_nodes.sublist ?_
    simp [Place.inside, Grove.nodes_cons]

/-- Two groves next to each other, the second of which is at its place. -/
theorem join (site : Site document (place.past grove.roots) other)
    (bears : grove.Bears document (some place.parent))
    (once : (place.parent :: (place.before ++ (grove.nodes ++ other.nodes) ++
      place.behind)).Nodup) :
    Site document place (grove ++ other) where
  cell := by simpa [Place.past] using site.cell
  bears := Grove.bears_append.mpr ⟨bears, site.bears⟩
  around node member := site.around node (by
    simp only [Place.past, List.mem_append] at member ⊢
    tauto)
  once := by simpa using once

end Site

/-! ## Growing -/

/-- A change that puts one grove in place of another. -/
structure Regrown (place : Place) (document : Document) (grove : Grove) (after : Document)
    (grown : Grove) : Prop where
  site : Site after place grown
  moves : document.Moves (fun node => node = place.parent ∨ node ∈ grove.nodes) after
  fresh : ∀ node ∈ grown.nodes, node ∈ grove.nodes ∨ ¬ document.Has node

namespace Regrown

variable {document after later : Document} {place : Place}
  {grove grown third other below rest : Grove} {node : NodeId} {data : NodeData}

theorem refl (site : Site document place grove) : Regrown place document grove document grove :=
  ⟨site, .refl _ _, fun _ => .inl⟩

theorem trans (first : Regrown place document grove after grown)
    (second : Regrown place after grown later third) : Regrown place document grove later third where
  site := second.site
  moves := first.moves.trans second.moves fun node has own => by
    obtain parent | inside := own
    · exact .inl parent
    · exact .inr ((first.fresh node inside).resolve_right (not_not_intro has))
  fresh node member := by
    obtain inside | fresh := second.fresh node member
    · exact first.fresh node inside
    · exact .inr fun has => fresh (first.moves.has has)

/-- The nodes around a grove are not among those that take its place. -/
theorem once (regrown : Regrown place document grove after grown) (front back : List NodeId)
    (once : (front ++ grove.nodes ++ back).Nodup)
    (has : ∀ node ∈ front ++ back, document.Has node) :
    (front ++ grown.nodes ++ back).Nodup := by
  refine nodup_replace _ _ _ _ once regrown.site.nodup_nodes fun node member => ?_
  obtain inside | fresh := regrown.fresh node member
  · exact .inl inside
  · exact .inr fun around => fresh (has node around)

/-- A grove grows beside another that comes before it. -/
theorem right (site : Site document place (grove ++ other))
    (regrown : Regrown (place.past grove.roots) document other after grown) :
    Regrown place document (grove ++ other) after (grove ++ grown) where
  site := by
    refine regrown.site.join ?_ ?_
    · refine (Grove.bears_append.mp site.bears).1.moves regrown.moves fun node member => ?_
      have once := site.nodup_nodes
      rw [Grove.nodes_append] at once
      rintro (rfl | again)
      · exact site.parent_notMem (Grove.nodes_append _ _ ▸ List.mem_append_left _ member)
      · exact (List.nodup_append'.mp once).2.2 member again
    · have once := regrown.once (place.parent :: (place.before ++ grove.nodes))
        place.behind (by simpa using site.once) ?_
      · simpa using once
      · intro node member
        simp only [List.mem_append, List.mem_cons] at member
        obtain (rfl | member | member) | member := member
        · exact site.has_parent
        · exact site.around node (by simp [member])
        · exact site.has (by simp [member])
        · exact site.around node (by simp [member])
  moves := regrown.moves.weaken fun node _ own => by
    obtain parent | inside := own
    · exact .inl parent
    · exact .inr (by simp [inside])
  fresh node member := by
    rw [Grove.nodes_append, List.mem_append] at member
    obtain earlier | member := member
    · exact .inl (by simp [earlier])
    · exact (regrown.fresh node member).imp_left fun inside => by simp [inside]

/-- A grove grows beside another that comes behind it. -/
theorem left (site : Site document place (grove ++ other))
    (regrown : Regrown (place.facing other.roots) document grove after grown) :
    Regrown place document (grove ++ other) after (grown ++ other) where
  site := by
    -- What grows is apart from the other grove, which is left as it is.
    have bears : other.Bears after (some place.parent) := by
      refine (Grove.bears_append.mp site.bears).2.moves regrown.moves fun node member => ?_
      have once := site.nodup_nodes
      rw [Grove.nodes_append] at once
      rintro (rfl | again)
      · exact site.parent_notMem (Grove.nodes_append _ _ ▸ List.mem_append_right _ member)
      · exact (List.nodup_append'.mp once).2.2 again member
    constructor
    case cell => simpa [Place.facing] using regrown.site.cell
    case bears => exact Grove.bears_append.mpr ⟨regrown.site.bears, bears⟩
    case around => exact fun node member => regrown.moves.has (site.around node member)
    case once =>
      have once := regrown.once (place.parent :: place.before)
        (other.nodes ++ place.behind) (by simpa using site.once) ?_
      · simpa using once
      · intro node member
        simp only [List.mem_append, List.mem_cons] at member
        obtain (rfl | member) | member | member := member
        · exact site.has_parent
        · exact site.around node (by simp [member])
        · exact site.has (by simp [member])
        · exact site.around node (by simp [member])
  moves := regrown.moves.weaken fun node _ own => by
    obtain parent | inside := own
    · exact .inl parent
    · exact .inr (by simp [inside])
  fresh node member := by
    rw [Grove.nodes_append, List.mem_append] at member
    obtain member | later := member
    · exact (regrown.fresh node member).imp_left fun inside => by simp [inside]
    · exact .inl (by simp [later])

/-- A grove grows behind a tree. -/
theorem tail (site : Site document place (.cons node data below rest))
    (regrown : Regrown (place.past [node]) document rest after grown) :
    Regrown place document (.cons node data below rest) after (.cons node data below grown) :=
  have joined : Site document place (.cons node data below .nil ++ rest) := site
  right joined regrown

/-- A grove grows inside of the node above it. -/
theorem inside (site : Site document place (.cons node data below rest))
    (regrown : Regrown (.inside node data (some place.parent)) document below after grown) :
    Regrown place document (.cons node data below rest) after (.cons node data grown rest) where
  site := by
    have once := site.nodup_nodes
    rw [Grove.nodes_cons, List.nodup_cons, List.mem_append, not_or, List.nodup_append'] at once
    -- The node above changes, but not the one above that.
    have moved : document.cell? place.parent = after.cell? place.parent := by
      refine (regrown.moves.kept _ site.has_parent ?_).symm
      have free := site.parent_notMem
      simp only [Grove.nodes_cons, List.mem_cons, List.mem_append, not_or] at free
      rintro (same | member)
      · exact free.1 same
      · exact free.2.1 member
    constructor
    case cell =>
      rw [← moved, site.cell]
      rfl
    case bears =>
      refine ⟨by simpa [Place.inside] using regrown.site.cell, regrown.site.bears, ?_⟩
      refine site.bears.2.2.moves regrown.moves fun other member => ?_
      rintro (rfl | again)
      · exact once.1.2 member
      · exact once.2.2.2 again member
    case around => exact fun node member => regrown.moves.has (site.around node member)
    case once =>
      have once := regrown.once (place.parent :: (place.before ++ [node]))
        (rest.nodes ++ place.behind) (by simpa using site.once) ?_
      · simpa using once
      · intro other member
        simp only [List.mem_append, List.mem_cons, List.not_mem_nil, or_false] at member
        obtain (rfl | member | rfl) | member | member := member
        · exact site.has_parent
        · exact site.around other (by simp [member])
        · exact site.has (by simp)
        · exact site.has (by simp [member])
        · exact site.around other (by simp [member])
  moves := regrown.moves.weaken fun other _ own => by
    obtain rfl | inside := own
    · exact .inr (by simp)
    · exact .inr (by simp [inside])
  fresh other member := by
    simp only [Grove.nodes_cons, List.mem_cons, List.mem_append] at member ⊢
    obtain same | member | later := member
    · exact .inl (.inl same)
    · exact (regrown.fresh other member).imp_left fun inside => .inr (.inl inside)
    · exact .inl (.inr (.inr later))

end Regrown

end LiveMarkup
