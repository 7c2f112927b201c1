import LiveMarkup.Proofs.Planting.Corresponding

/-! # A document within another one

One document may have all nodes of another, under other numbers, and more nodes that none of these
knows.  Whatever is done to the first document and, under the other numbers, to the second, it stays so
(`Document.Embeds`), and it stays so when the second document gets more such nodes
(`Document.Embeds.grow`).

The numbering also covers the nodes to come: the next nodes of the one document are the next nodes
of the other.  So it changes only when the second document runs ahead. -/

namespace LiveMarkup

open Document Markup

/-! ## Tidy documents -/

/-- All nodes that are named. -/
def Mutation.nodes : Mutation → List NodeId
  | setAttribute node _ _ | setText node _ | remove node => [node]
  | insert parent node => [parent, node]

theorem Mutation.node_mem_nodes (mutation : Mutation) : mutation.node ∈ mutation.nodes := by
  cases mutation <;> simp [node, nodes]

namespace Document

variable {document after other : Document} {node above : NodeId}

/-- Only nodes that exist are referred to, and parents and children agree. -/
structure Tidy (document : Document) : Prop where
  parents : ∀ node parent, document.parent node = some parent → document.Has parent
  sound : document.Sound
  logged : ∀ mutation ∈ document.mutations.toList, ∀ node ∈ mutation.nodes, document.Has node

theorem Sound.has_of_mem_children (sound : document.Sound)
    (member : node ∈ document.children above) : document.Has node :=
  has_of_parent (sound above node member)

namespace Tidy

theorem empty : Document.empty.Tidy where
  parents _ _ placed := absurd (has_of_parent placed) (Nat.not_lt_zero _)
  sound := sound_empty
  logged := nofun

/-- A change that is not recorded. -/
theorem change (tidy : document.Tidy) (grows : document.size ≤ after.size)
    (parents : ∀ node parent, after.parent node = some parent →
      document.parent node = some parent ∨ after.Has parent)
    (sound : after.Sound) (log : after.mutations = document.mutations) : after.Tidy where
  parents node parent placed := (parents node parent placed).elim
    (fun known => Nat.lt_of_lt_of_le (tidy.parents node parent known) grows) id
  sound := sound
  logged mutation member node named :=
    Nat.lt_of_lt_of_le (tidy.logged mutation (log ▸ member) node named) grows

theorem record (tidy : document.Tidy) {mutation : Mutation}
    (known : ∀ node ∈ mutation.nodes, document.Has node) : (document.record mutation).Tidy where
  parents := tidy.parents
  sound := tidy.sound.congr (fun _ => rfl) fun _ => rfl
  logged := by
    intro other member node named
    rw [Document.record, Array.toList_push, List.mem_append, List.mem_singleton] at member
    obtain member | rfl := member
    · exact tidy.logged other member node named
    · exact known node named

theorem create (tidy : document.Tidy) (data : NodeData) : (document.create data).2.Tidy := by
  apply tidy.change (by simp) _ (tidy.sound.create data) rfl
  intro node parent placed
  exact .inl (by simpa using placed)

theorem setData (tidy : document.Tidy) (node : NodeId) (data : NodeData) :
    (document.setData node data).Tidy :=
  tidy.change (by simp [Document.setData]) (fun other parent placed => .inl (by simpa using placed))
    (tidy.sound.setData data) rfl

theorem setAttribute (tidy : document.Tidy) (element : NodeId) (name value : String) :
    (document.setAttribute element name value).Tidy := by
  unfold Document.setAttribute
  split
  · next found =>
    refine (tidy.setData element _).record (List.forall_mem_singleton.mpr ?_)
    exact has_setData.mpr (has_of_data? found)
  · exact tidy

theorem setText (tidy : document.Tidy) (node : NodeId) (data : String) :
    (document.setText node data).Tidy := by
  unfold Document.setText
  split
  · next found =>
    refine (tidy.setData node _).record (List.forall_mem_singleton.mpr ?_)
    exact has_setData.mpr (has_of_data? found)
  · next found =>
    refine (tidy.setData node _).record (List.forall_mem_singleton.mpr ?_)
    exact has_setData.mpr (has_of_data? found)
  · exact tidy

theorem insertBefore (tidy : document.Tidy) {parent : NodeId} (hasParent : document.Has parent)
    (has : document.Has node) (reference : Option NodeId) :
    (document.insertBefore parent node reference).Tidy := by
  have kept {other : NodeId} (known : document.Has other) :
      (document.insertBefore parent node reference).Has other := by
    simpa [Has] using known
  constructor
  case parents =>
    intro other above placed
    rw [parent_insertBefore has] at placed
    split at placed
    · cases placed
      exact kept hasParent
    · exact kept (tidy.parents other above placed)
  case sound => exact tidy.sound.insertBefore has reference
  case logged =>
    intro mutation member other named
    rw [(Logs.insertBefore parent node reference).mutations, List.mem_append,
      List.mem_singleton] at member
    obtain member | rfl := member
    · exact kept (tidy.logged mutation member other named)
    · obtain rfl | rfl : other = parent ∨ other = node := by simpa [Mutation.nodes] using named
      · exact kept hasParent
      · exact kept has

theorem remove (tidy : document.Tidy) (has : document.Has node) : (document.remove node).Tidy := by
  have taken : (document.detach node).Tidy := by
    refine tidy.change (by simp) (fun other above placed => .inl ?_) tidy.sound.detach (by simp)
    rw [parent_detach] at placed
    split at placed
    · cases placed
    · exact placed
  exact taken.record (List.forall_mem_singleton.mpr (by simpa [Has] using has))

theorem forget (tidy : document.Tidy) : document.forget.Tidy where
  parents := tidy.parents
  sound := tidy.sound.congr (fun _ => rfl) fun _ => rfl
  logged := nofun

end Tidy

/-! ## The same cells under other numbers -/

/-- Each node has the same cell as the one with its other number. -/
def Matches (rename : NodeId → NodeId) (document other : Document) : Prop :=
  ∀ node, other.cell? (rename node) = (document.cell? node).map (Cell.renumber rename)

variable {rename : NodeId → NodeId}

theorem bne_rename (injective : rename.Injective) (node other : NodeId) :
    (rename node != rename other) = (node != other) := by
  rw [Bool.eq_iff_iff]
  simp [injective.eq_iff]

theorem filter_ne_map (injective : rename.Injective) (node : NodeId) (siblings : List NodeId) :
    (siblings.map rename).filter (· != rename node) = (siblings.filter (· != node)).map rename := by
  rw [List.filter_map]
  exact congrArg (List.map rename) (List.filter_congr fun other _ => bne_rename injective other node)

theorem placeBefore_map (injective : rename.Injective) (reference : Option NodeId) (node : NodeId)
    (siblings : List NodeId) :
    placeBefore (reference.map rename) (rename node) (siblings.map rename) =
      (placeBefore reference node siblings).map rename := by
  have others : (fun sibling => some sibling != reference.map rename) ∘ rename =
      fun sibling => some sibling != reference := by
    funext sibling
    cases reference with
    | none => rfl
    | some reference =>
      rw [Bool.eq_iff_iff]
      simp [injective.eq_iff]
  unfold placeBefore
  simp only [List.takeWhile_map, List.dropWhile_map, others, List.map_append, List.map_cons]

theorem successor_map (injective : rename.Injective) (node : NodeId) (siblings : List NodeId) :
    successor (rename node) (siblings.map rename) = (successor node siblings).map rename := by
  have others : (· != rename node) ∘ rename = (· != node) :=
    funext fun sibling => bne_rename injective sibling node
  rw [successor, List.dropWhile_map, others, ← List.map_tail, List.head?_map]
  rfl

namespace Matches

theorem data? (same : document.Matches rename other) (node : NodeId) :
    other.data? (rename node) = document.data? node := by
  rw [Document.data?, Document.data?, same node, Option.map_map]
  rfl

theorem parent (same : document.Matches rename other) (node : NodeId) :
    other.parent (rename node) = (document.parent node).map rename := by
  rw [Document.parent, Document.parent, same node]
  cases document.cell? node <;> rfl

theorem children (same : document.Matches rename other) (node : NodeId) :
    other.children (rename node) = (document.children node).map rename := by
  rw [Document.children, Document.children, same node]
  cases document.cell? node <;> rfl

theorem isElement (same : document.Matches rename other) (node : NodeId) :
    other.isElement (rename node) = document.isElement node := by
  rw [Document.isElement, Document.isElement, same.data?]

theorem has_iff (same : document.Matches rename other) :
    other.Has (rename node) ↔ document.Has node := by
  rw [← not_iff_not, ← cell?_eq_none_iff, ← cell?_eq_none_iff, same node, Option.map_eq_none_iff]

theorem nextSibling (same : document.Matches rename other) (injective : rename.Injective)
    (node : NodeId) : other.nextSibling (rename node) = (document.nextSibling node).map rename := by
  rw [Document.nextSibling, Document.nextSibling, same.parent]
  cases document.parent node with
  | none => rfl
  | some parent =>
    simp only [Option.map_some, Option.bind_some]
    rw [same.children, successor_map injective]

theorem modify (same : document.Matches rename other) (injective : rename.Injective)
    {change change' : Cell → Cell}
    (alike : ∀ cell, change' (cell.renumber rename) = (change cell).renumber rename) (node : NodeId) :
    (document.modify node change).Matches rename (other.modify (rename node) change') := by
  intro other
  simp only [cell?_modify, injective.eq_iff, same other]
  split
  · rw [Option.map_map, Option.map_map]
    exact congrArg (Option.map · _) (funext alike)
  · rfl

theorem setData (same : document.Matches rename other) (injective : rename.Injective) (node : NodeId)
    (data : NodeData) :
    (document.setData node data).Matches rename (other.setData (rename node) data) :=
  have alike (cell : Cell) : { cell.renumber rename with data } =
      { cell with data }.renumber rename := rfl
  same.modify injective alike node

theorem setParent (same : document.Matches rename other) (injective : rename.Injective) (node : NodeId)
    (parent : Option NodeId) :
    (document.setParent node parent).Matches rename
      (other.setParent (rename node) (parent.map rename)) :=
  have alike (cell : Cell) : { cell.renumber rename with parent := parent.map rename } =
      { cell with parent }.renumber rename := rfl
  same.modify injective alike node

theorem editChildren (same : document.Matches rename other) (injective : rename.Injective)
    {change change' : List NodeId → List NodeId}
    (alike : ∀ siblings, change' (siblings.map rename) = (change siblings).map rename)
    (node : NodeId) :
    (document.editChildren node change).Matches rename
      (other.editChildren (rename node) change') :=
  have alike (cell : Cell) :
      { cell.renumber rename with children := change' (cell.renumber rename).children } =
        { cell with children := change cell.children }.renumber rename := by
    simp [Cell.renumber, alike]
  same.modify injective alike node

theorem detach (same : document.Matches rename other) (injective : rename.Injective) (node : NodeId) :
    (document.detach node).Matches rename (other.detach (rename node)) := by
  unfold Document.detach
  rw [same.parent]
  cases document.parent node with
  | none => exact same
  | some parent =>
    exact (same.setParent injective node none).editChildren injective (filter_ne_map injective node)
      parent

theorem insertBefore (same : document.Matches rename other) (injective : rename.Injective)
    (parent node : NodeId) (reference : Option NodeId) :
    (document.insertBefore parent node reference).Matches rename
      (other.insertBefore (rename parent) (rename node) (reference.map rename)) := by
  -- The node is taken away first, so that the reference is found among the other children.
  have placed := (same.detach injective node).editChildren injective
    (placeBefore_map injective reference node) parent
  exact placed.setParent injective node (some parent)

end Matches

/-! ## Embeddings -/

open Classical in
/-- The changes, among others, of nodes that have one of the other numbers. -/
noncomputable def renumbered (rename : NodeId → NodeId) (mutations : List Mutation) : List Mutation :=
  mutations.filter fun mutation => ∃ node, rename node = mutation.node

/-- The second document has the nodes of the first one under other numbers, and more nodes, which
none of these refers to.  Its log has the changes of the first document, and more, which are of the
other nodes. -/
structure Embeds (rename : NodeId → NodeId) (document other : Document) : Prop where
  injective : rename.Injective
  /-- The next nodes of the one are the next nodes of the other. -/
  next : ∀ more, rename ⟨document.size + more⟩ = ⟨other.size + more⟩
  cells : document.Matches rename other
  log : renumbered rename other.mutations.toList =
    document.mutations.toList.map (Mutation.renumber rename)
  tidy : document.Tidy
  tidy_other : other.Tidy

theorem node_renumber (rename : NodeId → NodeId) (mutation : Mutation) :
    (mutation.renumber rename).node = rename mutation.node := by
  cases mutation <;> rfl

theorem nodes_renumber (rename : NodeId → NodeId) (mutation : Mutation) :
    (mutation.renumber rename).nodes = mutation.nodes.map rename := by
  cases mutation <;> rfl

namespace Embeds

/-- A document is within itself. -/
theorem refl (tidy : document.Tidy) : document.Embeds id document where
  injective := Function.injective_id
  next _ := rfl
  cells node := by
    have plain : Cell.renumber id = id := by
      funext cell
      simp [Cell.renumber]
    rw [plain, Option.map_id, id]
    rfl
  log := by
    have plain : Mutation.renumber id = id := by
      funext mutation
      cases mutation <;> rfl
    simp [renumbered, plain]
  tidy := tidy
  tidy_other := tidy

variable (embeds : document.Embeds rename other)

include embeds

theorem has_iff : other.Has (rename node) ↔ document.Has node :=
  embeds.cells.has_iff

/-- The same change of the cells, not recorded. -/
theorem change {after after' : Document} (size : after.size = document.size)
    (size' : after'.size = other.size) (cells : after.Matches rename after')
    (log : after.mutations = document.mutations) (log' : after'.mutations = other.mutations)
    (tidy : after.Tidy) (tidy' : after'.Tidy) : after.Embeds rename after' where
  injective := embeds.injective
  next more := by rw [size, size', embeds.next]
  cells := cells
  log := by rw [log, log', embeds.log]
  tidy := tidy
  tidy_other := tidy'

/-- The same change of nodes with other numbers is recorded. -/
theorem log_record (mutation : Mutation) :
    renumbered rename (other.mutations.toList ++ [mutation.renumber rename]) =
      (document.mutations.toList ++ [mutation]).map (Mutation.renumber rename) := by
  have own : ∃ node, rename node = (mutation.renumber rename).node :=
    ⟨mutation.node, (node_renumber rename mutation).symm⟩
  have log := embeds.log
  rw [renumbered] at log ⊢
  rw [List.filter_append, log, List.map_append]
  simp [own]

theorem record {mutation : Mutation} (known : ∀ node ∈ mutation.nodes, document.Has node) :
    (document.record mutation).Embeds rename (other.record (mutation.renumber rename)) where
  injective := embeds.injective
  next := embeds.next
  cells := embeds.cells
  log := by
    rw [Document.record, Document.record, Array.toList_push, Array.toList_push]
    exact embeds.log_record mutation
  tidy := embeds.tidy.record known
  tidy_other := by
    refine embeds.tidy_other.record ?_
    rw [nodes_renumber]
    exact List.forall_mem_map.mpr fun node member => embeds.has_iff.mpr (known node member)

theorem create (data : NodeData) :
    (document.create data).2.Embeds rename (other.create data).2 where
  injective := embeds.injective
  next more := by
    rw [size_create, size_create, Nat.add_assoc, Nat.add_assoc, embeds.next]
  cells := by
    intro node
    have first : rename ⟨document.size⟩ = ⟨other.size⟩ := embeds.next 0
    simp only [cell?_create, ← first, embeds.injective.eq_iff, embeds.cells node]
    split <;> rfl
  log := embeds.log
  tidy := embeds.tidy.create data
  tidy_other := embeds.tidy_other.create data

theorem setData (node : NodeId) (data : NodeData) :
    (document.setData node data).Embeds rename (other.setData (rename node) data) :=
  embeds.change (by simp [Document.setData]) (by simp [Document.setData])
    (embeds.cells.setData embeds.injective node data) rfl rfl (embeds.tidy.setData node data)
    (embeds.tidy_other.setData _ data)

/-- New data of a node that exists, recorded. -/
theorem recordData (data : NodeData) {mutation : Mutation} (has : document.Has mutation.node)
    (alone : mutation.nodes = [mutation.node]) :
    ((document.setData mutation.node data).record mutation).Embeds rename
      ((other.setData (rename mutation.node) data).record (mutation.renumber rename)) := by
  refine (embeds.setData mutation.node data).record ?_
  rw [alone]
  exact List.forall_mem_singleton.mpr (has_setData.mpr has)

theorem setAttribute (element : NodeId) (name value : String) :
    (document.setAttribute element name value).Embeds rename
      (other.setAttribute (rename element) name value) := by
  unfold Document.setAttribute
  rw [embeds.cells.data?]
  split
  · next found =>
    exact @recordData _ _ _ embeds _ (.setAttribute element name value) (has_of_data? found) rfl
  · exact embeds

theorem setText (node : NodeId) (data : String) :
    (document.setText node data).Embeds rename (other.setText (rename node) data) := by
  unfold Document.setText
  rw [embeds.cells.data?]
  split
  · next found => exact @recordData _ _ _ embeds _ (.setText node data) (has_of_data? found) rfl
  · next found => exact @recordData _ _ _ embeds _ (.setText node data) (has_of_data? found) rfl
  · exact embeds

theorem insertBefore {parent : NodeId} (hasParent : document.Has parent) (has : document.Has node)
    (reference : Option NodeId) :
    (document.insertBefore parent node reference).Embeds rename
      (other.insertBefore (rename parent) (rename node) (reference.map rename)) where
  injective := embeds.injective
  next more := by
    rw [size_insertBefore, size_insertBefore, embeds.next]
  cells := embeds.cells.insertBefore embeds.injective parent node reference
  log := by
    rw [(Logs.insertBefore parent node reference).mutations,
      (Logs.insertBefore (rename parent) (rename node) (reference.map rename)).mutations]
    exact embeds.log_record (.insert parent node)
  tidy := embeds.tidy.insertBefore hasParent has reference
  tidy_other :=
    embeds.tidy_other.insertBefore (embeds.has_iff.mpr hasParent) (embeds.has_iff.mpr has) _

theorem remove (has : document.Has node) :
    (document.remove node).Embeds rename (other.remove (rename node)) where
  injective := embeds.injective
  next more := by
    rw [Document.remove, Document.remove, size_record, size_record, size_detach, size_detach,
      embeds.next]
  cells := embeds.cells.detach embeds.injective node
  log := by
    rw [Document.remove, Document.remove, (Logs.detach node).mutations,
      (Logs.detach (rename node)).mutations]
    exact embeds.log_record (.remove node)
  tidy := embeds.tidy.remove has
  tidy_other := embeds.tidy_other.remove (embeds.has_iff.mpr has)

end Embeds

/-! ## Running ahead -/

theorem renumber_cell_congr {rename rename' : NodeId → NodeId} {cell : Cell}
    (parent : ∀ node, cell.parent = some node → rename' node = rename node)
    (children : ∀ node ∈ cell.children, rename' node = rename node) :
    cell.renumber rename' = cell.renumber rename := by
  have above : cell.parent.map rename' = cell.parent.map rename := by
    cases found : cell.parent with
    | none => rfl
    | some node => exact congrArg some (parent node found)
  rw [Cell.renumber, Cell.renumber, above, List.map_congr_left children]

theorem renumber_mutation_congr {rename rename' : NodeId → NodeId} {mutation : Mutation}
    (same : ∀ node ∈ mutation.nodes, rename' node = rename node) :
    mutation.renumber rename' = mutation.renumber rename := by
  cases mutation <;> simp_all [Mutation.nodes, Mutation.renumber]

/-- A document gets more nodes, and only these are changed. -/
structure Grows (document grown : Document) : Prop where
  size : document.size ≤ grown.size
  kept : ∀ node, document.Has node → grown.cell? node = document.cell? node
  tidy : grown.Tidy
  log : ∃ deeds, grown.mutations.toList = document.mutations.toList ++ deeds ∧
    ∀ mutation ∈ deeds, ¬ document.Has mutation.node

/-- The numbers when the second document has got more nodes.  Nodes that exist keep theirs, and the
nodes to come get those behind all that has been added. -/
def ahead (rename : NodeId → NodeId) (document grown : Document) (node : NodeId) : NodeId :=
  if node.number < document.size then rename node
  else ⟨grown.size + (node.number - document.size)⟩

section

variable {grown : Document} {deeds : List Mutation}

theorem ahead_of_has (has : document.Has node) : ahead rename document grown node = rename node :=
  if_pos has

theorem ahead_of_new (new : ¬ document.Has node) :
    ahead rename document grown node = ⟨grown.size + (node.number - document.size)⟩ :=
  if_neg new

namespace Embeds

variable (embeds : document.Embeds rename other) (size : other.size ≤ grown.size)

include embeds size

theorem has_ahead_iff : grown.Has (ahead rename document grown node) ↔ document.Has node := by
  by_cases known : document.Has node
  · rw [ahead_of_has known]
    exact iff_of_true (Nat.lt_of_lt_of_le (embeds.has_iff.mpr known) size) known
  · rw [ahead_of_new known]
    exact iff_of_false (Nat.not_lt.mpr (Nat.le_add_right _ _)) known

theorem injective_ahead : (ahead rename document grown).Injective := by
  intro first second same
  have both : grown.Has (ahead rename document grown first) ↔ document.Has first :=
    embeds.has_ahead_iff size
  rw [same, embeds.has_ahead_iff size] at both
  by_cases known : document.Has first
  · rw [ahead_of_has known, ahead_of_has (both.mpr known)] at same
    exact embeds.injective same
  · have known' := mt both.mp known
    rw [ahead_of_new known, ahead_of_new known'] at same
    obtain ⟨number⟩ := first
    obtain ⟨number'⟩ := second
    have numbers := congrArg NodeId.number same
    unfold Has at known known'
    simp only at numbers known known'
    rw [NodeId.mk.injEq]
    omega

theorem matches_ahead (kept : ∀ node, other.Has node → grown.cell? node = other.cell? node) :
    document.Matches (ahead rename document grown) grown := by
  intro node
  cases found : document.cell? node with
  | none =>
    exact cell?_eq_none_iff.mpr (mt (embeds.has_ahead_iff size).mp (cell?_eq_none_iff.mp found))
  | some cell =>
    have has := has_of_cell? found
    have same : cell.renumber (ahead rename document grown) = cell.renumber rename :=
      renumber_cell_congr
        (fun above placed => ahead_of_has (embeds.tidy.parents node above (by
          rw [parent_of_cell? found, placed])))
        fun below member => ahead_of_has (embeds.tidy.sound.has_of_mem_children (by
          rwa [children_of_cell? found]))
    rw [ahead_of_has has, kept _ (embeds.has_iff.mpr has), embeds.cells node, found,
      Option.map_some, Option.map_some, same]

/-- What has been logged before is of the same nodes as before. -/
theorem renumbered_ahead : renumbered (ahead rename document grown) other.mutations.toList =
    renumbered rename other.mutations.toList := by
  refine List.filter_congr fun mutation member => ?_
  have known := embeds.tidy_other.logged mutation member _ mutation.node_mem_nodes
  rw [decide_eq_decide]
  constructor
  · rintro ⟨node, same⟩
    have has := (embeds.has_ahead_iff size).mp (same ▸ Nat.lt_of_lt_of_le known size)
    exact ⟨node, (ahead_of_has has).symm.trans same⟩
  · rintro ⟨node, same⟩
    rw [← same, embeds.has_iff] at known
    exact ⟨node, (ahead_of_has known).trans same⟩

/-- Nodes that have been added are neither nodes that exist nor nodes to come. -/
theorem renumbered_new (new : ∀ mutation ∈ deeds, ¬ other.Has mutation.node)
    (known : ∀ mutation ∈ deeds, grown.Has mutation.node) :
    renumbered (ahead rename document grown) deeds = [] := by
  classical
  refine List.filter_eq_nil_iff.mpr fun mutation member => ?_
  rw [decide_eq_true_iff]
  rintro ⟨node, same⟩
  have has := (embeds.has_ahead_iff size).mp (same ▸ known mutation member)
  rw [ahead_of_has has] at same
  exact new mutation member (same ▸ embeds.has_iff.mpr has)

omit size in
/-- When the second document gets more nodes, the nodes to come get later numbers. -/
theorem grow (grows : other.Grows grown) :
    document.Embeds (ahead rename document grown) grown := by
  obtain ⟨size, kept, tidy, deeds, log, new⟩ := grows
  have known (mutation : Mutation) (member : mutation ∈ deeds) : grown.Has mutation.node :=
    tidy.logged mutation (log ▸ List.mem_append_right _ member) _ mutation.node_mem_nodes
  constructor
  case injective => exact embeds.injective_ahead size
  case next =>
    intro more
    have new : ¬ document.Has ⟨document.size + more⟩ := Nat.not_lt.mpr (Nat.le_add_right _ _)
    rw [ahead_of_new new, Nat.add_sub_cancel_left]
  case cells => exact embeds.matches_ahead size kept
  case log =>
    have split : renumbered (ahead rename document grown) (other.mutations.toList ++ deeds) =
        renumbered (ahead rename document grown) other.mutations.toList ++
          renumbered (ahead rename document grown) deeds :=
      List.filter_append ..
    rw [log, split, embeds.renumbered_ahead size, embeds.renumbered_new size new known,
      List.append_nil, embeds.log]
    exact List.map_congr_left fun mutation member => (renumber_mutation_congr fun node named =>
      ahead_of_has (embeds.tidy.logged mutation member node named)).symm
  case tidy => exact embeds.tidy
  case tidy_other => exact tidy

end Embeds

end

end Document

end LiveMarkup
