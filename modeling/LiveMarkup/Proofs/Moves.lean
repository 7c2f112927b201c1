import Mathlib.Data.List.TakeWhile
import LiveMarkup.Document.Stage

/-! # What changes a document

Every change of a document comes down to changes of single cells.  `Moves` says which cells a change
has left alone, and that it keeps parents and children in agreement; the changes that rendering is
made of are described by it and by the cells that they do change.  `Document.Logs` says what they
leave in the record. -/

namespace LiveMarkup

/-- The node that is changed. -/
def Mutation.node : Mutation → NodeId
  | setAttribute node _ _ | setText node _ | insert _ node | remove node => node

namespace Document

variable {document between after : Document} {node other parent : NodeId}

/-! ## Cells -/

/-- Whether a node has been created. -/
def Has (document : Document) (node : NodeId) : Prop :=
  node.number < document.size

instance (document : Document) (node : NodeId) : Decidable (document.Has node) :=
  inferInstanceAs (Decidable (node.number < document.size))

theorem cell?_eq_none_iff : document.cell? node = none ↔ ¬ document.Has node := by
  simp [cell?, Has, size]

theorem has_of_cell? {cell : Cell} (found : document.cell? node = some cell) :
    document.Has node :=
  (Array.getElem?_eq_some_iff.mp found).1

theorem Has.exists_cell? (has : document.Has node) : ∃ cell, document.cell? node = some cell :=
  ⟨_, Array.getElem?_eq_getElem has⟩

theorem children_of_cell? {cell : Cell} (found : document.cell? node = some cell) :
    document.children node = cell.children := by
  simp [children, found]

theorem parent_of_cell? {cell : Cell} (found : document.cell? node = some cell) :
    document.parent node = cell.parent := by
  simp [Document.parent, found]

theorem data?_of_cell? {cell : Cell} (found : document.cell? node = some cell) :
    document.data? node = some cell.data := by
  simp [data?, found]

theorem has_of_data? {data : NodeData} (found : document.data? node = some data) :
    document.Has node := by
  obtain ⟨cell, known, -⟩ := Option.map_eq_some_iff.mp found
  exact has_of_cell? known

theorem has_of_parent (placed : document.parent node = some parent) : document.Has node := by
  obtain ⟨cell, known, -⟩ := Option.bind_eq_some_iff.mp placed
  exact has_of_cell? known

@[simp] theorem size_modify (change : Cell → Cell) :
    (document.modify node change).size = document.size := by
  simp [modify, size]

theorem cell?_modify (change : Cell → Cell) :
    (document.modify node change).cell? other =
      if other = node then (document.cell? other).map change else document.cell? other := by
  unfold modify cell?
  rw [Array.getElem?_modify]
  by_cases same : other = node
  · rw [same, if_pos rfl, if_pos rfl]
  · rw [if_neg same, if_neg]
    intro numbers
    exact same (congrArg NodeId.mk numbers.symm)

@[simp] theorem mutations_modify (change : Cell → Cell) :
    (document.modify node change).mutations = document.mutations :=
  rfl

theorem has_setData {data : NodeData} : (document.setData node data).Has other ↔
    document.Has other := by
  simp [Has, setData]

@[simp] theorem size_record (mutation : Mutation) :
    (document.record mutation).size = document.size :=
  rfl

@[simp] theorem cell?_record (mutation : Mutation) :
    (document.record mutation).cell? node = document.cell? node :=
  rfl

theorem cell?_create (data : NodeData) :
    (document.create data).2.cell? node =
      if node = ⟨document.size⟩ then some ⟨data, none, []⟩ else document.cell? node := by
  unfold create cell? size
  simp only [Array.getElem?_push]
  by_cases same : node = ⟨document.cells.size⟩
  · rw [if_pos same, if_pos (congrArg NodeId.number same)]
  · rw [if_neg same, if_neg]
    intro numbers
    exact same (congrArg NodeId.mk numbers)

@[simp] theorem size_create (data : NodeData) :
    (document.create data).2.size = document.size + 1 := by
  simp [create, size]

theorem cell?_next : document.cell? ⟨document.size⟩ = none :=
  cell?_eq_none_iff.mpr (Nat.lt_irrefl _)

theorem cell?_setData_self {cell : Cell} (found : document.cell? node = some cell)
    (data : NodeData) : (document.setData node data).cell? node = some { cell with data } := by
  rw [setData, cell?_modify, if_pos rfl, found]
  rfl

theorem cell?_setData_of_ne (apart : other ≠ node) (data : NodeData) :
    (document.setData node data).cell? other = document.cell? other := by
  rw [setData, cell?_modify, if_neg apart]

theorem data?_setData (data : NodeData) :
    (document.setData node data).data? other =
      if other = node then (document.data? other).map fun _ => data else document.data? other := by
  simp only [data?, setData, cell?_modify]
  split
  · rw [Option.map_map, Option.map_map]
    rfl
  · rfl

/-! ## Attributes -/

theorem lookup_putAttribute_self (name value : String) (attributes : List (String × String)) :
    (putAttribute name value attributes).lookup name = some value := by
  induction attributes with
  | nil => simp [putAttribute]
  | cons pair attributes ih =>
    obtain ⟨key, kept⟩ := pair
    by_cases same : key = name
    · simp [putAttribute, same]
    · simp [putAttribute, same, List.lookup_cons, beq_false_of_ne (Ne.symm same), ih]

theorem lookup_putAttribute_of_ne {name other : String} (apart : other ≠ name) (value : String)
    (attributes : List (String × String)) :
    (putAttribute name value attributes).lookup other = attributes.lookup other := by
  induction attributes with
  | nil => simp [putAttribute, List.lookup_cons, beq_false_of_ne apart]
  | cons pair attributes ih =>
    obtain ⟨key, kept⟩ := pair
    by_cases same : key = name
    · subst same
      simp [putAttribute, List.lookup_cons, beq_false_of_ne apart]
    · simp [putAttribute, same, List.lookup_cons, ih]

/-- Setting an attribute to what it is changes nothing. -/
theorem putAttribute_of_lookup {name value : String} {attributes : List (String × String)}
    (there : attributes.lookup name = some value) :
    putAttribute name value attributes = attributes := by
  induction attributes with
  | nil => cases there
  | cons pair attributes ih =>
    obtain ⟨key, kept⟩ := pair
    by_cases same : key = name
    · subst same
      have equal : kept = value := by simpa using there
      simp [putAttribute, equal]
    · rw [List.lookup_cons, beq_false_of_ne (Ne.symm same)] at there
      simp [putAttribute, same, ih there]

theorem putAttribute_of_notMem {name value : String} {attributes : List (String × String)}
    (absent : name ∉ attributes.map Prod.fst) :
    putAttribute name value attributes = attributes ++ [(name, value)] := by
  induction attributes with
  | nil => rfl
  | cons pair attributes ih =>
    obtain ⟨other, kept⟩ := pair
    simp only [List.map_cons, List.mem_cons, not_or] at absent
    rw [putAttribute, if_neg (Ne.symm absent.1), ih absent.2]
    rfl

/-- An attribute that is new gets its place behind the others, which keep theirs. -/
theorem names_putAttribute (name value : String) (attributes : List (String × String)) :
    (putAttribute name value attributes).map Prod.fst =
      if name ∈ attributes.map Prod.fst then attributes.map Prod.fst
      else attributes.map Prod.fst ++ [name] := by
  induction attributes with
  | nil => rfl
  | cons pair attributes ih =>
    obtain ⟨key, kept⟩ := pair
    by_cases same : key = name
    · simp [putAttribute, same]
    · simp only [putAttribute, if_neg same, List.map_cons, ih, List.mem_cons, Ne.symm same, false_or]
      split <;> rfl

/-! ## Parents and children -/

@[simp] theorem children_create (data : NodeData) :
    (document.create data).2.children node = document.children node := by
  simp only [children, cell?_create]
  split
  · next fresh => simp [fresh, cell?_next]
  · rfl

@[simp] theorem parent_create (data : NodeData) :
    (document.create data).2.parent node = document.parent node := by
  simp only [Document.parent, cell?_create]
  split
  · next fresh => simp [fresh, cell?_next]
  · rfl

@[simp] theorem children_setData (data : NodeData) :
    (document.setData node data).children other = document.children other := by
  simp only [children, setData, cell?_modify]
  split
  · cases document.cell? other <;> rfl
  · rfl

@[simp] theorem parent_setData (data : NodeData) :
    (document.setData node data).parent other = document.parent other := by
  simp only [Document.parent, setData, cell?_modify]
  split
  · cases document.cell? other <;> rfl
  · rfl

@[simp] theorem children_setParent (above : Option NodeId) :
    (document.setParent node above).children other = document.children other := by
  simp only [children, setParent, cell?_modify]
  split
  · cases document.cell? other <;> rfl
  · rfl

@[simp] theorem parent_editChildren (change : List NodeId → List NodeId) :
    (document.editChildren node change).parent other = document.parent other := by
  simp only [Document.parent, editChildren, cell?_modify]
  split
  · cases document.cell? other <;> rfl
  · rfl

@[simp] theorem data?_setParent (above : Option NodeId) :
    (document.setParent node above).data? other = document.data? other := by
  simp only [data?, setParent, cell?_modify]
  split
  · cases document.cell? other <;> rfl
  · rfl

@[simp] theorem data?_editChildren (change : List NodeId → List NodeId) :
    (document.editChildren node change).data? other = document.data? other := by
  simp only [data?, editChildren, cell?_modify]
  split
  · cases document.cell? other <;> rfl
  · rfl

@[simp] theorem children_record (mutation : Mutation) :
    (document.record mutation).children other = document.children other :=
  rfl

@[simp] theorem parent_record (mutation : Mutation) :
    (document.record mutation).parent other = document.parent other :=
  rfl

@[simp] theorem data?_record (mutation : Mutation) :
    (document.record mutation).data? other = document.data? other :=
  rfl

theorem parent_setParent_self (has : document.Has node) (above : Option NodeId) :
    (document.setParent node above).parent node = above := by
  obtain ⟨cell, found⟩ := has.exists_cell?
  simp [Document.parent, setParent, cell?_modify, found]

theorem parent_setParent_of_ne (apart : other ≠ node) (above : Option NodeId) :
    (document.setParent node above).parent other = document.parent other := by
  rw [Document.parent, setParent, cell?_modify, if_neg apart, Document.parent]

/-- The children after a change that an empty list of children cannot show. -/
theorem mem_children_editChildren {change : List NodeId → List NodeId}
    (member : other ∈ (document.editChildren node change).children parent) :
    parent = node ∧ other ∈ change (document.children node) ∨
      parent ≠ node ∧ other ∈ document.children parent := by
  simp only [children, editChildren, cell?_modify] at member ⊢
  by_cases same : parent = node
  · subst same
    rw [if_pos rfl] at member
    refine .inl ⟨rfl, ?_⟩
    cases found : document.cell? parent with
    | none => simp [found] at member
    | some cell => simpa [found] using member
  · rw [if_neg same] at member
    exact .inr ⟨same, member⟩

theorem children_editChildren {change : List NodeId → List NodeId} (keeps : change [] = []) :
    (document.editChildren node change).children other =
      if other = node then change (document.children other) else document.children other := by
  simp only [children, editChildren, cell?_modify]
  by_cases same : other = node
  · subst same
    rw [if_pos rfl, if_pos rfl]
    cases document.cell? other with
    | none => exact keeps.symm
    | some cell => rfl
  · rw [if_neg same, if_neg same]

theorem children_editChildren_of_has (has : document.Has node)
    (change : List NodeId → List NodeId) :
    (document.editChildren node change).children other =
      if other = node then change (document.children other) else document.children other := by
  simp only [children, editChildren, cell?_modify]
  by_cases same : other = node
  · obtain ⟨cell, found⟩ := has.exists_cell?
    simp [same, found]
  · simp [same]

theorem children_detach (document : Document) (node parent : NodeId) :
    (document.detach node).children parent =
      if document.parent node = some parent then (document.children parent).filter (· != node)
      else document.children parent := by
  unfold detach
  cases placed : document.parent node with
  | none => rfl
  | some above =>
    dsimp only
    rw [children_editChildren List.filter_nil, children_setParent]
    by_cases here : parent = above
    · rw [if_pos here, if_pos (congrArg some here.symm)]
    · rw [if_neg here, if_neg fun same => here (Option.some.inj same).symm]

/-- Every child has its parent as its parent. -/
def Sound (document : Document) : Prop :=
  ∀ parent node, node ∈ document.children parent → document.parent node = some parent

theorem sound_empty : Document.empty.Sound := by
  intro parent node member
  simp [children, cell?, empty] at member

theorem Sound.congr (sound : document.Sound)
    (children : ∀ node, after.children node = document.children node)
    (parents : ∀ node, after.parent node = document.parent node) : after.Sound := by
  intro parent node member
  rw [children] at member
  rw [parents]
  exact sound parent node member

theorem Sound.setData (sound : document.Sound) (data : NodeData) :
    (document.setData node data).Sound :=
  sound.congr (by simp) (by simp)

theorem Sound.create (sound : document.Sound) (data : NodeData) :
    (document.create data).2.Sound :=
  sound.congr (by simp) (by simp)

/-- A node that was taken out is no child, and all other children have stayed. -/
theorem Sound.mem_children_detach (sound : document.Sound)
    (member : other ∈ (document.detach node).children parent) :
    other ≠ node ∧ other ∈ document.children parent := by
  unfold detach at member
  split at member
  · next above placed =>
    obtain ⟨rfl, kept⟩ | ⟨away, kept⟩ := mem_children_editChildren member
    · rw [children_setParent, List.mem_filter] at kept
      exact ⟨by simpa using kept.2, kept.1⟩
    · rw [children_setParent] at kept
      refine ⟨?_, kept⟩
      rintro rfl
      rw [sound parent other kept] at placed
      exact away (Option.some.inj placed)
  · next loose =>
    refine ⟨?_, member⟩
    rintro rfl
    rw [sound parent other member] at loose
    cases loose

theorem parent_detach_of_ne (apart : other ≠ node) :
    (document.detach node).parent other = document.parent other := by
  unfold detach
  split
  · rw [parent_editChildren, parent_setParent_of_ne apart]
  · rfl

theorem parent_detach (document : Document) (node other : NodeId) :
    (document.detach node).parent other = if other = node then none else document.parent other := by
  split
  · next same =>
    subst same
    unfold detach
    split
    · next placed =>
      rw [parent_editChildren, parent_setParent_self (has_of_parent placed)]
    · next loose => exact loose
  · next apart => exact parent_detach_of_ne apart

theorem Sound.detach (sound : document.Sound) : (document.detach node).Sound := by
  intro parent other member
  obtain ⟨apart, member⟩ := sound.mem_children_detach member
  rw [parent_detach_of_ne apart]
  exact sound parent other member

@[simp] theorem data?_detach : (document.detach node).data? other = document.data? other := by
  unfold detach
  split <;> simp

@[simp] theorem data?_insertBefore (reference : Option NodeId) :
    (document.insertBefore parent node reference).data? other = document.data? other := by
  simp [insertBefore]

theorem mem_placeBefore {reference : Option NodeId} {siblings : List NodeId} :
    other ∈ placeBefore reference node siblings ↔ other = node ∨ other ∈ siblings := by
  unfold placeBefore
  rw [List.mem_append, List.mem_cons, or_left_comm, ← List.mem_append,
    List.takeWhile_append_dropWhile]

theorem placeBefore_perm (reference : Option NodeId) (node : NodeId) (siblings : List NodeId) :
    (placeBefore reference node siblings).Perm (node :: siblings) := by
  unfold placeBefore
  apply List.perm_middle.trans
  rw [List.takeWhile_append_dropWhile]

/-- A reference that is not there. -/
theorem placeBefore_of_forall_ne {reference : Option NodeId} {siblings : List NodeId}
    (apart : ∀ other ∈ siblings, some other ≠ reference) :
    placeBefore reference node siblings = siblings ++ [node] := by
  have others : ∀ other ∈ siblings, (some other != reference) = true := by simpa using apart
  unfold placeBefore
  dsimp only
  rw [List.takeWhile_eq_self_iff.mpr others, List.dropWhile_eq_nil_iff.mpr others]

theorem placeBefore_of_notMem {front behind : List NodeId} (absent : other ∉ front) :
    placeBefore (some other) node (front ++ other :: behind) = front ++ node :: other :: behind := by
  have others : ∀ sibling ∈ front, (some sibling != some other) = true := by
    intro sibling member
    have apart : sibling ≠ other := by
      rintro rfl
      exact absent member
    simpa using apart
  unfold placeBefore
  dsimp only
  rw [List.takeWhile_append_of_pos others, List.dropWhile_append_of_pos others]
  simp

theorem successor_of_notMem {front behind : List NodeId} (absent : node ∉ front) :
    successor node (front ++ node :: behind) = behind.head? := by
  have others : ∀ sibling ∈ front, (sibling != node) = true := by
    intro sibling member
    have apart : sibling ≠ node := by
      rintro rfl
      exact absent member
    simpa using apart
  rw [successor, List.dropWhile_append_of_pos others]
  simp

@[simp] theorem size_detach : (document.detach node).size = document.size := by
  unfold detach
  split
  · simp [editChildren, setParent]
  · rfl

@[simp] theorem mutations_detach : (document.detach node).mutations = document.mutations := by
  unfold detach
  split <;> rfl

@[simp] theorem size_insertBefore (reference : Option NodeId) :
    (document.insertBefore parent node reference).size = document.size := by
  simp [insertBefore, editChildren, setParent]

theorem parent_insertBefore (has : document.Has node) (parent other : NodeId)
    (reference : Option NodeId) :
    (document.insertBefore parent node reference).parent other =
      if other = node then some parent else document.parent other := by
  rw [insertBefore, parent_record]
  split
  · next same =>
    subst same
    exact parent_setParent_self (by simpa [Has, editChildren] using has) _
  · next apart =>
    rw [parent_setParent_of_ne apart, parent_editChildren, parent_detach_of_ne apart]

theorem children_insertBefore (has : document.Has parent) (node other : NodeId)
    (reference : Option NodeId) :
    (document.insertBefore parent node reference).children other =
      if other = parent then placeBefore reference node ((document.detach node).children other)
      else (document.detach node).children other := by
  have kept : (document.detach node).Has parent := by simpa [Has] using has
  rw [insertBefore, children_record, children_setParent, children_editChildren_of_has kept]

theorem Sound.insertBefore (sound : document.Sound) (has : document.Has node)
    (reference : Option NodeId) : (document.insertBefore parent node reference).Sound := by
  intro above other member
  have created : ((document.detach node).editChildren parent (placeBefore reference node)).Has
      node := by
    simpa [Has, editChildren] using has
  simp only [Document.insertBefore, children_record, children_setParent] at member
  simp only [Document.insertBefore, parent_record]
  have cases : above = parent ∧ other = node ∨
      other ≠ node ∧ other ∈ document.children above := by
    obtain ⟨rfl, member⟩ | ⟨-, member⟩ := mem_children_editChildren member
    · obtain same | member := mem_placeBefore.mp member
      · exact .inl ⟨rfl, same⟩
      · exact .inr (sound.mem_children_detach member)
    · exact .inr (sound.mem_children_detach member)
  obtain ⟨rfl, rfl⟩ | ⟨apart, member⟩ := cases
  · exact parent_setParent_self created _
  · rw [parent_setParent_of_ne apart, parent_editChildren, parent_detach_of_ne apart]
    exact sound above other member

/-! ## Logs -/

/-- From the first document to the second one, the given changes have been recorded, and so many
nodes have been created that there is the given number of them. -/
structure Logs (document : Document) (next : Nat) (deeds : List Mutation)
    (after : Document) : Prop where
  size : after.size = next
  mutations : after.mutations.toList = document.mutations.toList ++ deeds

namespace Logs

variable {next later : Nat} {deeds more : List Mutation}

theorem refl (document : Document) : document.Logs document.size [] document :=
  ⟨rfl, (List.append_nil _).symm⟩

theorem trans (first : document.Logs next deeds between) (second : between.Logs later more after) :
    document.Logs later (deeds ++ more) after :=
  ⟨second.size, by rw [second.mutations, first.mutations, List.append_assoc]⟩

/-- One change of the data of a node has been recorded. -/
theorem setData (node : NodeId) (data : NodeData) (mutation : Mutation) :
    document.Logs document.size [mutation] ((document.setData node data).record mutation) :=
  ⟨by simp [Document.setData], by simp [Document.record, Document.setData, Document.modify]⟩

theorem create (data : NodeData) :
    document.Logs (document.size + 1) [] (document.create data).2 :=
  ⟨by simp, by simp [Document.create]⟩

theorem detach (node : NodeId) :
    document.Logs document.size [.remove node] ((document.detach node).record (.remove node)) :=
  ⟨by simp, by simp [Document.record]⟩

theorem insertBefore (parent node : NodeId) (reference : Option NodeId) :
    document.Logs document.size [.insert parent node]
      (document.insertBefore parent node reference) :=
  ⟨by simp, by simp [Document.insertBefore, Document.record, setParent, editChildren]⟩

end Logs

/-! ## Changes -/

/-- A change that leaves all cells alone except those of some nodes. -/
structure Moves (owned : NodeId → Prop) (document after : Document) : Prop where
  grows : document.size ≤ after.size
  kept : ∀ node, document.Has node → ¬ owned node → after.cell? node = document.cell? node
  sound : document.Sound → after.Sound

namespace Moves

variable {owned more : NodeId → Prop} {later : Document}

theorem refl (owned : NodeId → Prop) (document : Document) : Moves owned document document :=
  ⟨Nat.le_refl _, fun _ _ _ => rfl, id⟩

theorem has (moves : Moves owned document after) (has : document.Has node) : after.Has node :=
  Nat.lt_of_lt_of_le has moves.grows

theorem weaken (moves : Moves owned document after)
    (within : ∀ node, document.Has node → owned node → more node) : Moves more document after where
  grows := moves.grows
  kept node has free := moves.kept node has fun own => free (within node has own)
  sound := moves.sound

/-- The second change may also concern nodes that the first one has created. -/
theorem trans (first : Moves owned document after) (second : Moves more after later)
    (within : ∀ node, document.Has node → more node → owned node) :
    Moves owned document later where
  grows := Nat.le_trans first.grows second.grows
  kept node has free := by
    rw [second.kept node (first.has has) fun own => free (within node has own)]
    exact first.kept node has free
  sound sound := second.sound (first.sound sound)

/-- Recording a change does not change a document further. -/
theorem record (moves : Moves owned document after) (mutation : Mutation) :
    Moves owned document (after.record mutation) :=
  ⟨moves.grows, moves.kept, moves.sound⟩

end Moves

theorem moves_setData (node : NodeId) (data : NodeData) (document : Document) :
    Moves (· = node) document (document.setData node data) where
  grows := by simp [setData]
  kept _ _ free := cell?_setData_of_ne free data
  sound sound := sound.setData data

theorem moves_create (data : NodeData) (document : Document) :
    Moves (fun _ => False) document (document.create data).2 where
  grows := by simp
  kept node has _ := by
    rw [cell?_create, if_neg]
    rintro rfl
    exact Nat.lt_irrefl _ has
  sound sound := sound.create data

theorem cell?_detach_of_ne (apart : other ≠ node) (elsewhere : document.parent node ≠ some other) :
    (document.detach node).cell? other = document.cell? other := by
  unfold detach
  split
  · next parent placed =>
    rw [editChildren, cell?_modify, if_neg, setParent, cell?_modify, if_neg apart]
    rintro rfl
    exact elsewhere placed
  · rfl

theorem moves_detach (node : NodeId) (document : Document) :
    Moves (fun other => other = node ∨ document.parent node = some other) document
      (document.detach node) where
  grows := by simp
  kept other _ free := by
    obtain ⟨apart, elsewhere⟩ := not_or.mp free
    exact cell?_detach_of_ne apart elsewhere
  sound sound := sound.detach

/-- A node without a parent, put among the children of another. -/
theorem moves_insertBefore {cell : Cell} (found : document.cell? node = some cell)
    (loose : cell.parent = none) (reference : Option NodeId) :
    Moves (fun other => other = node ∨ other = parent) document
      (document.insertBefore parent node reference) where
  grows := by simp
  kept other _ free := by
    obtain ⟨apart, elsewhere⟩ := not_or.mp free
    rw [insertBefore, cell?_record, setParent, cell?_modify, if_neg apart, editChildren,
      cell?_modify, if_neg elsewhere]
    refine cell?_detach_of_ne apart ?_
    rw [parent_of_cell? found, loose]
    nofun
  sound sound := sound.insertBefore (has_of_cell? found) reference

end Document

end LiveMarkup
