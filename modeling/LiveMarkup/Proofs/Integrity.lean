import Mathlib.Data.List.Nodup
import LiveMarkup.Proofs.Moves

/-! # Documents stay in order

Whatever operations have brought a document about, its parents and children agree, no node is a child
twice, no element has two attributes of one name, and each further operation does what it is for and
nothing else.  What has changed is named in what has been recorded (`Document.orderly_of_runs`).

A node that is put somewhere is taken out first.  Within one parent this moves the reference, so what
an insertion does is told by the children without the node (`Document.PutIn`). -/

namespace LiveMarkup

/-- The attributes of an element.  Nothing else has any. -/
def NodeData.attributes : NodeData → List (String × String)
  | .element _ _ attributes => attributes
  | .text _ | .comment _ => []

namespace Document

variable {document between after : Document} {node other parent : NodeId}

/-! ## Operations -/

/-- What is done to a document from outside. -/
inductive Operation where
  | create (data : NodeData)
  | setAttribute (element : NodeId) (name value : String)
  | setText (node : NodeId) (data : String)
  | insertBefore (parent node : NodeId) (reference : Option NodeId)
  | remove (node : NodeId)
  | takeMutations
  deriving DecidableEq, Repr

/-- Nodes that something is done to exist, and new ones have no attributes yet.  The reference of an
insertion may be any node. -/
def Operation.Fits (document : Document) : Operation → Prop
  | create data => data.attributes = []
  | setAttribute node _ _ | setText node _ | remove node => document.Has node
  | insertBefore parent node _ => document.Has parent ∧ document.Has node
  | takeMutations => True

instance (document : Document) : (operation : Operation) → Decidable (operation.Fits document)
  | .create data => inferInstanceAs (Decidable (data.attributes = []))
  | .setAttribute node _ _ | .setText node _ | .remove node =>
    inferInstanceAs (Decidable (document.Has node))
  | .insertBefore parent node _ =>
    inferInstanceAs (Decidable (document.Has parent ∧ document.Has node))
  | .takeMutations => inferInstanceAs (Decidable True)

/-- The mutations that an operation takes out of a document. -/
def Operation.taken (document : Document) : Operation → List Mutation
  | takeMutations => document.mutations.toList
  | _ => []

def perform (document : Document) : Operation → Document
  | .create data => (document.create data).2
  | .setAttribute element name value => document.setAttribute element name value
  | .setText node data => document.setText node data
  | .insertBefore parent node reference => document.insertBefore parent node reference
  | .remove node => document.remove node
  | .takeMutations => document.forget

/-- Operations lead from one document to another, and the given mutations are taken on the way. -/
inductive Runs : Document → List Operation → List Mutation → Document → Prop where
  | done (document : Document) : Runs document [] [] document
  | step {document after : Document} {operation : Operation} {operations : List Operation}
      {taken : List Mutation} (fits : operation.Fits document)
      (run : Runs (document.perform operation) operations taken after) :
      Runs document (operation :: operations) (operation.taken document ++ taken) after

/-! ## What the operations are for -/

/-- A node is put into a parent, before the reference if that is another child of the parent, else
behind all children.  It is gone from where it was. -/
structure PutIn (document : Document) (parent node : NodeId) (reference : Option NodeId)
    (after : Document) : Prop where
  before : ∀ other front behind, reference = some other →
    (document.children parent).erase node = front ++ other :: behind →
    after.children parent = front ++ node :: other :: behind
  behind : (∀ other, reference = some other → other ≠ node → other ∉ document.children parent) →
    after.children parent = (document.children parent).erase node ++ [node]
  elsewhere : ∀ other, other ≠ parent → after.children other = (document.children other).erase node
  parent : after.parent node = some parent
  parents : ∀ other, other ≠ node → after.parent other = document.parent other
  data : ∀ other, after.data? other = document.data? other

/-- A node is taken out of its parent, if it has one. -/
structure TakenOut (document : Document) (node : NodeId) (after : Document) : Prop where
  siblings : ∀ parent, document.parent node = some parent →
    after.children parent = (document.children parent).erase node
  elsewhere : ∀ other, document.parent node ≠ some other →
    after.children other = document.children other
  parent : after.parent node = none
  parents : ∀ other, other ≠ node → after.parent other = document.parent other
  data : ∀ other, after.data? other = document.data? other

/-- An attribute of an element gets a value.  The other attributes keep theirs, and all keep their
order, in which a new one is the last. -/
structure Assigned (document : Document) (node : NodeId) (name value : String)
    (after : Document) : Prop where
  element : ∀ cell tag space attributes, document.cell? node = some cell →
    cell.data = .element tag space attributes →
    ∃ changed, after.cell? node = some { cell with data := .element tag space changed } ∧
      changed.lookup name = some value ∧
      (∀ other, other ≠ name → changed.lookup other = attributes.lookup other) ∧
      changed.map Prod.fst =
        if name ∈ attributes.map Prod.fst then attributes.map Prod.fst
        else attributes.map Prod.fst ++ [name]
  noElement : document.isElement node = false → after = document
  others : ∀ other, other ≠ node → after.cell? other = document.cell? other

/-- A text or a comment gets other data. -/
structure Written (document : Document) (node : NodeId) (data : String) (after : Document) :
    Prop where
  text : ∀ cell shown, document.cell? node = some cell → cell.data = .text shown →
    after.cell? node = some { cell with data := .text data }
  comment : ∀ cell shown, document.cell? node = some cell → cell.data = .comment shown →
    after.cell? node = some { cell with data := .comment data }
  element : document.isElement node = true → after = document
  others : ∀ other, other ≠ node → after.cell? other = document.cell? other

/-- Every node that has changed is named in a mutation that has been recorded since. -/
def Accounts (document : Document) (taken : List Mutation) (after : Document) : Prop :=
  ∃ recorded, taken ++ after.mutations.toList = document.mutations.toList ++ recorded ∧
    ∀ node, document.Has node →
      after.data? node ≠ document.data? node ∨ after.parent node ≠ document.parent node →
      node ∈ recorded.map Mutation.node

/-- Parents and children agree, no node is a child twice, and no element has two attributes of one
name. -/
structure Intact (document : Document) : Prop where
  mem_children : ∀ parent node,
    node ∈ document.children parent ↔ document.parent node = some parent
  once : ∀ parent, (document.children parent).Nodup
  distinct : ∀ node data, document.data? node = some data → (data.attributes.map Prod.fst).Nodup

/-- A document in which everything is in its place, and in which operations do what they are for. -/
structure Orderly (document : Document) : Prop where
  intact : document.Intact
  nextSibling : ∀ parent front node behind, document.children parent = front ++ node :: behind →
    document.nextSibling node = behind.head?
  nextSibling_loose : ∀ node, document.parent node = none → document.nextSibling node = none
  insertBefore : ∀ parent node reference, document.Has parent → document.Has node →
    document.PutIn parent node reference (document.insertBefore parent node reference)
  remove : ∀ node, document.Has node → document.TakenOut node (document.remove node)
  setAttribute : ∀ element name value, document.Has element →
    document.Assigned element name value (document.setAttribute element name value)
  setText : ∀ node data, document.Has node →
    document.Written node data (document.setText node data)
  accounts : ∀ operations taken after, Runs document operations taken after →
    document.Accounts taken after

/-! ## Data -/

theorem assigned_setAttribute (document : Document) (element : NodeId) (name value : String) :
    document.Assigned element name value (document.setAttribute element name value) where
  element cell tag space attributes found shown := by
    refine ⟨putAttribute name value attributes, ?_, lookup_putAttribute_self _ _ _,
      fun other apart => lookup_putAttribute_of_ne apart _ _, names_putAttribute _ _ _⟩
    have data : document.data? element = some (.element tag space attributes) := by
      rw [data?_of_cell? found, shown]
    simp only [setAttribute, data, cell?_record]
    exact cell?_setData_self found _
  noElement different := by
    unfold setAttribute
    split
    · next data => simp [isElement, data] at different
    · rfl
  others other apart := by
    unfold setAttribute
    split
    · exact cell?_setData_of_ne apart _
    · rfl

theorem written_setText (document : Document) (node : NodeId) (data : String) :
    document.Written node data (document.setText node data) where
  text cell shown found kind := by
    simp only [setText, data?_of_cell? found, kind, cell?_record]
    exact cell?_setData_self found _
  comment cell shown found kind := by
    simp only [setText, data?_of_cell? found, kind, cell?_record]
    exact cell?_setData_self found _
  element same := by
    unfold setText
    split
    · next text => simp [isElement, text] at same
    · next comment => simp [isElement, comment] at same
    · rfl
  others other apart := by
    unfold setText
    split
    · exact cell?_setData_of_ne apart _
    · exact cell?_setData_of_ne apart _
    · rfl

/-! ## One operation -/

namespace Intact

theorem empty : Document.empty.Intact where
  mem_children parent node := by simp [children, Document.parent, cell?, Document.empty]
  once parent := by simp [children, cell?, Document.empty]
  distinct node data found := absurd (has_of_data? found) (Nat.not_lt_zero _)

/-- Only the data of nodes is other. -/
theorem congr (intact : document.Intact)
    (children : ∀ node, after.children node = document.children node)
    (parents : ∀ node, after.parent node = document.parent node)
    (distinct : ∀ node data, after.data? node = some data → (data.attributes.map Prod.fst).Nodup) :
    after.Intact where
  mem_children parent node := by rw [children, parents, intact.mem_children]
  once parent := by
    rw [children]
    exact intact.once parent
  distinct := distinct

theorem setData (intact : document.Intact) (node : NodeId) {data : NodeData}
    (distinct : (data.attributes.map Prod.fst).Nodup) : (document.setData node data).Intact := by
  apply intact.congr (by simp) (by simp)
  intro other found known
  rw [data?_setData] at known
  split at known
  · obtain ⟨_, -, rfl⟩ := Option.map_eq_some_iff.mp known
    exact distinct
  · exact intact.distinct other found known

theorem record (intact : document.Intact) (mutation : Mutation) :
    (document.record mutation).Intact :=
  intact.congr (fun _ => rfl) (fun _ => rfl) intact.distinct

theorem create (intact : document.Intact) {data : NodeData} (bare : data.attributes = []) :
    (document.create data).2.Intact := by
  apply intact.congr (by simp) (by simp)
  intro node found known
  simp only [data?, cell?_create] at known
  split at known
  · obtain rfl : data = found := by simpa using known
    simp [bare]
  · exact intact.distinct node found known

/-- A node is a child of its parent only, so taking it out takes it out everywhere. -/
theorem children_detach_eq (intact : document.Intact) (node other : NodeId) :
    (document.detach node).children other = (document.children other).erase node := by
  rw [children_detach]
  split
  · rw [(intact.once other).erase_eq_filter]
  · next elsewhere =>
    rw [List.erase_of_not_mem]
    rwa [intact.mem_children]

theorem detach (intact : document.Intact) (node : NodeId) : (document.detach node).Intact where
  mem_children parent other := by
    rw [intact.children_detach_eq, (intact.once parent).mem_erase_iff, intact.mem_children,
      parent_detach]
    by_cases same : other = node <;> simp [same]
  once parent := by
    rw [intact.children_detach_eq]
    exact (intact.once parent).erase node
  distinct other data found := by
    rw [data?_detach] at found
    exact intact.distinct other data found

theorem insertBefore (intact : document.Intact) (hasParent : document.Has parent)
    (has : document.Has node) (reference : Option NodeId) :
    (document.insertBefore parent node reference).Intact where
  mem_children above other := by
    have loose := (intact.detach node).mem_children above other
    rw [parent_detach] at loose
    rw [children_insertBefore hasParent, parent_insertBefore has]
    -- Once taken out, the node is nobody's child, and it becomes one of the parent only.
    by_cases here : above = parent
    · rw [if_pos here, mem_placeBefore, loose]
      by_cases same : other = node <;> simp [same, here]
    · rw [if_neg here, loose]
      by_cases same : other = node <;> simp [same, Ne.symm here]
  once above := by
    have loose := intact.detach node
    have absent : node ∉ (document.detach node).children above := by
      simp [loose.mem_children, parent_detach]
    rw [children_insertBefore hasParent]
    split
    · apply (placeBefore_perm _ _ _).nodup_iff.mpr
      exact List.nodup_cons.mpr ⟨absent, loose.once above⟩
    · exact loose.once above
  distinct other data found := by
    rw [data?_insertBefore] at found
    exact intact.distinct other data found

theorem setAttribute (intact : document.Intact) (element : NodeId) (name value : String) :
    (document.setAttribute element name value).Intact := by
  unfold Document.setAttribute
  split
  · next tag space attributes found =>
    apply Intact.record
    apply intact.setData
    show ((putAttribute name value attributes).map Prod.fst).Nodup
    have once : (attributes.map Prod.fst).Nodup := intact.distinct element _ found
    rw [names_putAttribute]
    split
    · exact once
    · next absent =>
      apply (List.perm_append_singleton name _).nodup_iff.mpr
      exact List.nodup_cons.mpr ⟨absent, once⟩
  · exact intact

theorem setText (intact : document.Intact) (node : NodeId) (data : String) :
    (document.setText node data).Intact := by
  unfold Document.setText
  split
  · exact (intact.setData node (by simp [NodeData.attributes])).record _
  · exact (intact.setData node (by simp [NodeData.attributes])).record _
  · exact intact

theorem perform (intact : document.Intact) {operation : Operation}
    (fits : operation.Fits document) : (document.perform operation).Intact := by
  cases operation with
  | create data => exact intact.create fits
  | setAttribute element name value => exact intact.setAttribute element name value
  | setText node data => exact intact.setText node data
  | insertBefore parent node reference => exact intact.insertBefore fits.1 fits.2 reference
  | remove node => exact (intact.detach node).record _
  | takeMutations => exact intact.congr (fun _ => rfl) (fun _ => rfl) intact.distinct

/-- What stands before one of the children is not that child. -/
theorem notMem_front (intact : document.Intact) {front behind : List NodeId}
    (split : document.children parent = front ++ node :: behind) : node ∉ front := by
  intro member
  have once := intact.once parent
  rw [split, List.nodup_append] at once
  exact once.2.2 node member node List.mem_cons_self rfl

theorem putIn (intact : document.Intact) (hasParent : document.Has parent)
    (has : document.Has node) (reference : Option NodeId) :
    document.PutIn parent node reference (document.insertBefore parent node reference) where
  before other front behind known split := by
    rw [← intact.children_detach_eq] at split
    have absent : other ∉ front := (intact.detach node).notMem_front split
    rw [children_insertBefore hasParent, if_pos rfl, split, known]
    exact placeBefore_of_notMem absent
  behind unknown := by
    rw [children_insertBefore hasParent, if_pos rfl, intact.children_detach_eq]
    -- If the reference is the node itself, it is not there any more.
    apply placeBefore_of_forall_ne
    intro other member known
    have ⟨apart, child⟩ := (intact.once parent).mem_erase_iff.mp member
    exact unknown other known.symm apart child
  elsewhere other apart := by
    rw [children_insertBefore hasParent, if_neg apart, intact.children_detach_eq]
  parent := by rw [parent_insertBefore has, if_pos rfl]
  parents other apart := by rw [parent_insertBefore has, if_neg apart]
  data other := data?_insertBefore reference

theorem takenOut (intact : document.Intact) (node : NodeId) :
    document.TakenOut node (document.remove node) where
  siblings parent _ := intact.children_detach_eq node parent
  elsewhere other apart := by
    show (document.detach node).children other = document.children other
    rw [children_detach, if_neg apart]
  parent := by
    show (document.detach node).parent node = none
    rw [parent_detach, if_pos rfl]
  parents other apart := parent_detach_of_ne apart
  data other := data?_detach

theorem nextSibling (intact : document.Intact) {front behind : List NodeId}
    (split : document.children parent = front ++ node :: behind) :
    document.nextSibling node = behind.head? := by
  have inside : document.parent node = some parent := by
    rw [← intact.mem_children, split]
    simp
  rw [Document.nextSibling, inside, Option.bind_some, split]
  exact successor_of_notMem (intact.notMem_front split)

end Intact

/-! ## What has been recorded -/

theorem size_le_perform (document : Document) (operation : Operation) :
    document.size ≤ (document.perform operation).size := by
  cases operation with
  | create data => simp [perform]
  | setAttribute element name value =>
    simp only [perform, setAttribute]
    split <;> simp [setData]
  | setText node data =>
    simp only [perform, setText]
    split <;> simp [setData]
  | insertBefore parent node reference => simp [perform]
  | remove node => simp [perform, remove]
  | takeMutations => exact Nat.le_refl _

namespace Accounts

variable {taken more : List Mutation}

theorem refl (document : Document) : document.Accounts [] document :=
  ⟨[], by simp, by simp⟩

theorem of_logs {next : Nat} {deeds : List Mutation} (logs : document.Logs next deeds after)
    (kept : ∀ node, document.Has node → node ∉ deeds.map Mutation.node →
      after.data? node = document.data? node ∧ after.parent node = document.parent node) :
    document.Accounts [] after := by
  refine ⟨deeds, logs.mutations, fun node has changed => ?_⟩
  by_contra unnamed
  obtain ⟨sameData, sameParent⟩ := kept node has unnamed
  simp [sameData, sameParent] at changed

theorem trans (first : document.Accounts taken between) (grows : document.size ≤ between.size)
    (second : between.Accounts more after) : document.Accounts (taken ++ more) after := by
  obtain ⟨recorded, log, named⟩ := first
  obtain ⟨later, logLater, namedLater⟩ := second
  refine ⟨recorded ++ later, ?_, fun node has changed => ?_⟩
  · calc taken ++ more ++ after.mutations.toList
        = taken ++ (between.mutations.toList ++ later) := by rw [List.append_assoc, logLater]
      _ = document.mutations.toList ++ (recorded ++ later) := by
        rw [← List.append_assoc, log, List.append_assoc]
  · rw [List.map_append, List.mem_append]
    -- A node that is as it was half way has changed behind that.
    by_cases same : between.data? node = document.data? node ∧
        between.parent node = document.parent node
    · right
      apply namedLater node (Nat.lt_of_lt_of_le has grows)
      rwa [same.1, same.2]
    · left
      exact named node has (not_and_or.mp same)

theorem setData (node : NodeId) (data : NodeData) {mutation : Mutation}
    (names : mutation.node = node) :
    document.Accounts [] ((document.setData node data).record mutation) := by
  apply of_logs (.setData node data mutation)
  intro other _ unnamed
  have apart : other ≠ node := by simpa [names] using unnamed
  rw [data?_record, data?_setData, if_neg apart, parent_record, parent_setData]
  exact ⟨rfl, rfl⟩

theorem perform {operation : Operation} (fits : operation.Fits document) :
    document.Accounts (operation.taken document) (document.perform operation) := by
  cases operation with
  | create data =>
    apply of_logs (.create data)
    intro node has _
    have known : (document.create data).2.cell? node = document.cell? node :=
      (moves_create data document).kept node has not_false
    exact ⟨by rw [data?, known, data?], parent_create data⟩
  | setAttribute element name value =>
    simp only [Document.perform, Document.setAttribute]
    split
    · exact setData _ _ rfl
    · exact refl document
  | setText node data =>
    simp only [Document.perform, Document.setText]
    split
    · exact setData _ _ rfl
    · exact setData _ _ rfl
    · exact refl document
  | insertBefore parent node reference =>
    apply of_logs (.insertBefore parent node reference)
    intro other _ unnamed
    have apart : other ≠ node := by simpa [Mutation.node] using unnamed
    rw [parent_insertBefore fits.2, if_neg apart]
    exact ⟨data?_insertBefore reference, rfl⟩
  | remove node =>
    apply of_logs (.detach node)
    intro other _ unnamed
    have apart : other ≠ node := by simpa [Mutation.node] using unnamed
    exact ⟨data?_detach, parent_detach_of_ne apart⟩
  | takeMutations => exact ⟨[], by simp [Operation.taken, Document.perform, forget], by
      intro node _ changed
      simp [Document.perform, forget, data?, Document.parent, cell?] at changed⟩

end Accounts

/-! ## All operations -/

section

variable {operations : List Operation} {taken : List Mutation}

theorem Intact.runs (intact : document.Intact) (run : Runs document operations taken after) :
    after.Intact := by
  induction run with
  | done => exact intact
  | step fits _ ih => exact ih (intact.perform fits)

theorem Runs.accounts (run : Runs document operations taken after) :
    document.Accounts taken after := by
  induction run with
  | done document => exact .refl document
  | @step document after operation _ _ fits _ ih =>
    exact (Accounts.perform fits).trans (size_le_perform document operation) ih

/-- Every document that operations on nodes that exist have brought about is in order. -/
theorem orderly_of_runs (run : Runs .empty operations taken document) : document.Orderly := by
  have intact : document.Intact := Intact.empty.runs run
  constructor
  case intact => exact intact
  case nextSibling => exact fun parent front node behind split => intact.nextSibling split
  case nextSibling_loose => exact fun node loose => by simp [Document.nextSibling, loose]
  case insertBefore =>
    exact fun parent node reference hasParent has => intact.putIn hasParent has reference
  case remove => exact fun node _ => intact.takenOut node
  case setAttribute =>
    exact fun element name value _ => assigned_setAttribute document element name value
  case setText => exact fun node data _ => written_setText document node data
  case accounts => exact fun operations taken after run => run.accounts

/-- Two elements of one parent change places, and one of them goes into the other. -/
def Operation.rearranging : List Operation :=
  [.create (.element "p" none []), .create (.element "b" none []), .create (.element "i" none []),
    .insertBefore ⟨0⟩ ⟨1⟩ none, .insertBefore ⟨0⟩ ⟨2⟩ none, .takeMutations,
    .insertBefore ⟨0⟩ ⟨2⟩ (some ⟨1⟩), .setAttribute ⟨1⟩ "title" "x",
    .insertBefore ⟨2⟩ ⟨1⟩ (some ⟨7⟩)]

theorem orderly_of_runs_rearranging :
    Runs .empty Operation.rearranging [.insert ⟨0⟩ ⟨1⟩, .insert ⟨0⟩ ⟨2⟩]
        (Operation.rearranging.foldl perform .empty) ∧
      (Operation.rearranging.foldl perform .empty).children ⟨2⟩ = [⟨1⟩] ∧
      (Operation.rearranging.foldl perform .empty).Orderly := by
  have run : Runs .empty Operation.rearranging [.insert ⟨0⟩ ⟨1⟩, .insert ⟨0⟩ ⟨2⟩]
      (Operation.rearranging.foldl perform .empty) :=
    .step (by decide) (.step (by decide) (.step (by decide) (.step (by decide) (.step (by decide)
      (.step (by decide) (.step (by decide) (.step (by decide) (.step (by decide)
        (.done _)))))))))
  exact ⟨run, by decide, orderly_of_runs run⟩

end

end Document

end LiveMarkup
