import LiveMarkup.Proofs.Grove
import LiveMarkup.Proofs.Simulation

/-! # Operations on groves

What each operation on a stage does to a grove: how it changes the data of a node, takes away a
tree, and puts in a new one. -/

namespace LiveMarkup

open Document

variable {document after : Document} {place : Place} {grove grown below rest : Grove}
  {node : NodeId} {data : NodeData}

/-! ## Data -/

/-- Other data in the first node of a grove. -/
theorem Regrown.setData (site : Site document place (.cons node data below rest))
    (changed : NodeData) :
    Regrown place document (.cons node data below rest) (document.setData node changed)
      (.cons node changed below rest) where
  site := by
    have once := site.nodup_nodes
    have parent := site.parent_notMem
    simp only [Grove.nodes_cons, List.nodup_cons, List.mem_cons, not_or, List.mem_append]
      at once parent
    constructor
    case cell =>
      rw [cell?_setData_of_ne parent.1, site.cell]
      rfl
    case bears =>
      refine ⟨?_, site.bears.2.1.congr ?_, site.bears.2.2.congr ?_⟩
      · rw [cell?_setData_self site.bears.1]
      · rintro other member
        refine cell?_setData_of_ne ?_ changed
        rintro rfl
        exact once.1.1 member
      · rintro other member
        refine cell?_setData_of_ne ?_ changed
        rintro rfl
        exact once.1.2 member
    case around => exact fun other member => (moves_setData _ _ _).has (site.around other member)
    case once => exact site.once
  moves := (moves_setData node changed document).weaken fun other _ own => .inr (by simp [own])
  fresh other member := .inl (by simpa using member)

theorem Regrown.record (regrown : Regrown place document grove after grown) (mutation : Mutation) :
    Regrown place document grove (after.record mutation) grown where
  site := ⟨regrown.site.cell, regrown.site.bears.congr fun _ _ => rfl, regrown.site.around,
    regrown.site.once⟩
  moves := regrown.moves.record mutation
  fresh := regrown.fresh

theorem performs_setText {shown : String}
    (site : Site document place (.cons node (.text shown) below rest)) (changed : String) :
    Performs (Stage.setText node changed) document fun _ after =>
      Regrown place document (.cons node (.text shown) below rest) after
        (.cons node (.text changed) below rest) := by
  have found := data?_of_cell? site.bears.1
  unfold Stage.setText
  refine .get fun stage same whole => ?_
  subst same
  have text : stage.document.isElement node = false := by simp [isElement, found]
  simp only [text, Bool.false_eq_true, if_false]
  refine .edit ?_
  simp only [Document.setText, found]
  exact (Regrown.setData site _).record _

theorem performs_setAttribute {tag : String} {space : Option String}
    {attributes : List (String × String)}
    (site : Site document place (.cons node (.element tag space attributes) below rest))
    (name value : String) :
    Performs (Stage.setAttribute node name value) document fun _ after =>
      Regrown place document (.cons node (.element tag space attributes) below rest) after
        (.cons node (.element tag space (putAttribute name value attributes)) below rest) := by
  have found := data?_of_cell? site.bears.1
  unfold Stage.setAttribute
  refine .get fun stage same whole => ?_
  subst same
  have element : stage.document.isElement node = true := by simp [isElement, found]
  simp only [element, if_true]
  refine .edit ?_
  simp only [Document.setAttribute, found]
  exact (Regrown.setData site _).record _

/-! ## Taking away -/

theorem cell?_detach_parent {cell above : Cell} {parent : NodeId}
    (found : document.cell? node = some cell) (placed : cell.parent = some parent)
    (outside : document.cell? parent = some above) (apart : parent ≠ node) :
    (document.detach node).cell? parent =
      some { above with children := above.children.filter (· != node) } := by
  simp only [detach, parent_of_cell? found, placed]
  rw [editChildren, cell?_modify, if_pos rfl, setParent, cell?_modify, if_neg apart, outside]
  rfl

/-- The first tree of a grove is taken out. -/
theorem Regrown.detach (site : Site document place (.cons node data below rest)) :
    Regrown place document (.cons node data below rest) (document.detach node) rest where
  site := by
    have parent := parent_of_cell? site.bears.1
    have once := site.nodup_nodes
    have notParent := site.parent_notMem
    simp only [Grove.nodes_cons, List.nodup_cons, List.mem_cons, not_or, List.mem_append]
      at once notParent
    constructor
    case cell =>
      rw [cell?_detach_parent site.bears.1 rfl site.cell notParent.1]
      -- The node is among the children of its parent only once.
      have around : ∀ other ∈ place.before ++ place.behind, other ≠ node := by
        rintro other member rfl
        exact site.notMem_of_mem_around member (by simp)
      have inRest : ∀ other ∈ rest.roots, other ≠ node := by
        rintro other member rfl
        exact once.1.2 (Grove.mem_nodes_of_mem_roots member)
      have before : place.before.filter (· != node) = place.before :=
        List.filter_eq_self.mpr fun other member => by
          simpa using around other (List.mem_append_left _ member)
      have behind : place.behind.filter (· != node) = place.behind :=
        List.filter_eq_self.mpr fun other member => by
          simpa using around other (List.mem_append_right _ member)
      have roots : rest.roots.filter (· != node) = rest.roots :=
        List.filter_eq_self.mpr fun other member => by simpa using inRest other member
      simp [before, behind, roots]
    case bears =>
      refine site.bears.2.2.congr fun other member => cell?_detach_of_ne ?_ ?_
      · rintro rfl
        exact once.1.2 member
      · rw [parent]
        intro same
        cases same
        exact notParent.2.2 member
    case around => exact fun other member => (moves_detach _ _).has (site.around other member)
    case once =>
      refine site.once.sublist (.cons_cons _ (.append_right (.append_left ?_ _) _))
      exact (List.sublist_append_right _ _).cons _
  moves := by
    refine (moves_detach node document).weaken fun other _ own => ?_
    obtain rfl | own := own
    · exact .inr (by simp)
    · rw [parent_of_cell? site.bears.1] at own
      exact .inl (Option.some.inj own).symm
  fresh other member := .inl (by simp [member])

theorem performs_removal (document : Document) (node : NodeId) :
    Performs (Stage.remove node) document fun _ after =>
      after = (document.detach node).record (.remove node) := by
  unfold Stage.remove
  refine .get fun stage same whole => ?_
  rw [whole]
  change Performs (Stage.edit (·.remove node)) document _
  exact .edit rfl

theorem performs_remove (site : Site document place (.cons node data below rest)) :
    Performs (Stage.remove node) document fun _ after =>
      Regrown place document (.cons node data below rest) after rest := by
  refine (performs_removal document node).mono fun _ after same => ?_
  subst same
  exact (Regrown.detach site).record _

/-- All trees of a grove are taken out. -/
theorem performs_removeAll (site : Site document place grove) :
    Performs (grove.roots.forM Stage.remove) document fun _ after =>
      Regrown place document grove after .nil := by
  induction grove generalizing document with
  | nil => exact .pure (.refl site)
  | cons node data below rest _ ih =>
    refine (performs_remove site).bind fun _ between removed => ?_
    exact (ih removed.site).mono fun _ after more => removed.trans more

/-! ## Putting in -/

theorem placeBefore_head? {before behind : List NodeId} (once : (before ++ behind).Nodup) :
    placeBefore behind.head? node (before ++ behind) = before ++ node :: behind := by
  cases behind with
  | nil => rw [List.append_nil, List.head?_nil, placeBefore_of_forall_ne (by simp)]
  | cons first behind =>
    apply placeBefore_of_notMem
    intro member
    exact (List.nodup_append'.mp once).2.2 member List.mem_cons_self

/-- A grove without a parent, whose nodes are not at a place. -/
structure Loose (document : Document) (place : Place) (grove : Grove) : Prop where
  bears : grove.Bears document none
  once : grove.nodes.Nodup
  apart : ∀ node ∈ grove.nodes, node ∉ place.parent :: (place.before ++ place.behind)

theorem Loose.head (loose : Loose document place (.cons node data below rest)) :
    Loose document place (.cons node data below .nil) where
  bears := ⟨loose.bears.1, loose.bears.2.1, trivial⟩
  once := loose.once.sublist (by simp)
  apart other member := loose.apart other (by simp at member ⊢; tauto)

/-- A tree without a parent is put in. -/
theorem Site.insert (site : Site document place .nil)
    (loose : Loose document place (.cons node data below .nil)) :
    Site (document.insertBefore place.parent node place.behind.head?) place
      (.cons node data below .nil) := by
  have own := loose.apart node (by simp)
  have inside : ∀ other ∈ below.nodes, other ≠ place.parent ∧ other ≠ node := by
    intro other member
    refine ⟨?_, ?_⟩
    · rintro rfl
      exact loose.apart place.parent (by simp [member]) (by simp)
    · rintro rfl
      exact (List.nodup_cons.mp loose.once).1 (by simp [member])
  -- Nothing is taken out of a parent, since there is none.
  have free : document.detach node = document := by
    simp [Document.detach, parent_of_cell? loose.bears.1]
  have apart : node ≠ place.parent := fun same => own (by simp [same])
  constructor
  case cell =>
    have lined : (place.before ++ place.behind).Nodup := by simpa using site.once.of_cons
    rw [Document.insertBefore, free, cell?_record, setParent, cell?_modify, if_neg apart.symm,
      editChildren, cell?_modify, if_pos rfl, site.cell]
    simp [placeBefore_head? lined]
  case bears =>
    refine ⟨?_, loose.bears.2.1.congr ?_, trivial⟩
    · rw [Document.insertBefore, free, cell?_record, setParent, cell?_modify, if_pos rfl,
        editChildren, cell?_modify, if_neg apart, loose.bears.1]
      rfl
    · intro other member
      rw [Document.insertBefore, free, cell?_record, setParent, cell?_modify,
        if_neg (inside other member).2, editChildren, cell?_modify,
        if_neg (inside other member).1]
  case around =>
    exact fun other member => (moves_insertBefore loose.bears.1 rfl _).has (site.around other member)
  case once =>
    have replaced := nodup_replace (place.parent :: place.before) [] (node :: below.nodes)
      place.behind (by simpa using site.once) (by simpa using loose.once) fun other member =>
        .inr (loose.apart other (by simpa using member))
    simpa using replaced

theorem performs_insertBefore (site : Site document place .nil)
    (loose : Loose document place (.cons node data below .nil)) :
    Performs (Stage.insertBefore place.parent node place.behind.head?) document fun _ after =>
      Site after place (.cons node data below .nil) ∧
        document.Moves (fun other => other = place.parent ∨ other = node) after := by
  have edited : Performs (Stage.edit (·.insertBefore place.parent node place.behind.head?))
      document fun _ after => Site after place (.cons node data below .nil) ∧
        document.Moves (fun other => other = place.parent ∨ other = node) after :=
    .edit ⟨site.insert loose,
      (moves_insertBefore loose.bears.1 rfl _).weaken fun _ _ own => own.symm⟩
  unfold Stage.insertBefore
  cases next : place.behind.head? with
  | none =>
    rw [next] at edited
    exact edited
  | some reference =>
    rw [next] at edited
    refine .get fun stage _ _ => ?_
    split
    · exact edited
    · exact .noting edited

/-- All trees of a grove are put in, one behind the other. -/
theorem performs_insertAll (site : Site document place .nil) (loose : Loose document place grove) :
    Performs
      (grove.roots.forM fun root => Stage.insertBefore place.parent root place.behind.head?)
      document fun _ after => Site after place grove ∧
        document.Moves (fun other => other = place.parent ∨ other ∈ grove.nodes) after := by
  induction grove generalizing document place with
  | nil => exact .pure ⟨site, .refl _ _⟩
  | cons node data below rest _ ih =>
    refine (performs_insertBefore site loose.head).bind fun _ between inserted => ?_
    obtain ⟨here, moved⟩ := inserted
    have once := loose.once
    simp only [Grove.nodes_cons, List.nodup_cons, List.mem_append, not_or, List.nodup_append']
      at once
    have there : Site between (place.past [node]) .nil := by
      simpa using here.tail
    -- The other trees are still loose, and their place is now behind the first one.
    have later : Loose between (place.past [node]) rest := by
      refine ⟨loose.bears.2.2.moves moved fun other member => ?_, once.2.2.1, ?_⟩
      · rintro (rfl | rfl)
        · exact loose.apart place.parent (by simp [member]) (by simp)
        · exact once.1.2 member
      · intro other member around
        have apart := loose.apart other (by simp [member])
        simp only [Place.past, List.append_assoc, List.mem_cons, List.mem_append,
          List.not_mem_nil, or_false] at around apart
        obtain parent | before | rfl | behind := around
        · exact apart (.inl parent)
        · exact apart (.inr (.inl before))
        · exact once.1.2 member
        · exact apart (.inr (.inr behind))
    refine (ih there later).mono fun _ after filled => ?_
    obtain ⟨inserted, moved'⟩ := filled
    refine ⟨?_, ?_⟩
    · have bears : (Grove.cons node data below .nil).Bears after (some place.parent) := by
        refine here.bears.moves moved' fun other member => ?_
        simp only [Grove.nodes_cons, Grove.nodes_nil, List.append_nil, List.mem_cons] at member
        rintro (rfl | again)
        · exact here.parent_notMem (by simpa [Place.past] using member)
        · obtain rfl | member := member
          · exact once.1.2 again
          · exact once.2.2.2 member again
      refine @Site.join _ _ (.cons node data below .nil) rest inserted bears ?_
      have replaced := nodup_replace (place.parent :: place.before) []
        (node :: below.nodes ++ rest.nodes) place.behind (by simpa using site.once)
        (by simpa using loose.once) fun other member =>
          .inr (loose.apart other (by simpa using member))
      simpa using replaced
    · refine Moves.trans (moved.weaken fun other _ own => ?_) moved' fun other _ own => ?_
      · exact own.imp_right fun same => by simp [same]
      · exact own.imp_right fun member => by simp [member]

/-! ## Putting in what is new -/

/-- What was put in without being there before is new. -/
theorem Regrown.of_insert {created : Document}
    (made : document.Moves (fun _ => False) created)
    (fresh : ∀ node ∈ grown.nodes, ¬ document.Has node)
    (inserted : Site after place grown)
    (moved : created.Moves (fun node => node = place.parent ∨ node ∈ grown.nodes) after) :
    Regrown place document .nil after grown where
  site := inserted
  moves := (made.weaken fun _ _ => False.elim).trans moved fun node has own =>
    .inl (own.resolve_right fun member => fresh node member has)
  fresh node member := .inr (fresh node member)

/-- The node behind the last one before a place. -/
theorem Site.nextSibling (site : Site document place .nil) {last : NodeId}
    (final : place.before.getLast? = some last)
    (inside : document.parent last = some place.parent) :
    document.nextSibling last = place.behind.head? := by
  obtain ⟨earlier, split⟩ := List.getLast?_eq_some_iff.mp final
  have once := site.once.of_cons
  have absent : last ∉ earlier := by
    intro member
    simp [split, List.nodup_append', member] at once
  rw [Document.nextSibling, inside, Option.bind_some, children_of_cell? site.cell, split,
    Grove.roots_nil, List.append_nil, List.append_assoc]
  exact successor_of_notMem absent

end LiveMarkup
