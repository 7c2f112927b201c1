import LiveMarkup.Proofs.Compilation
import LiveMarkup.Proofs.Rewording

/-! # Surveys that succeed

A forest that can be cut into a stencil is surveyed without complaint, if the values are expected where
the stencil has its parts (`Blueprint.survey_of_cut`).  This is the converse of `Blueprint.survey_eq_ok`,
and so cutting is just what surveys do.

`Survey.Notes` says what some of a survey takes down, and is kept by sequencing.  Bound attributes
come in any order, but only one order has their indices one after another (`Survey.inOrder_eq`). -/

namespace LiveMarkup

open Markup Stencil

namespace Survey

variable {α β : Type}

/-! ## Taking down parts -/

/-- Behind as many parts as told, some of a survey takes down the given ones, if their positions come
next. -/
def Notes (next : Nat) (action : Survey α) (result : α) (parts : List Part) : Prop :=
  ∀ (places : List Position) (taken : List Part), taken.length = next →
    action ⟨parts.map Part.position ++ places, taken⟩ = .ok (result, ⟨places, taken ++ parts⟩)

namespace Notes

variable {next : Nat} {result : β} {more : List Part}

/-- What does not change anything takes down nothing. -/
theorem silent {action : Survey β} (same : ∀ surveyor, action surveyor = .ok (result, surveyor)) :
    Notes next action result [] := by
  intro places taken _
  rw [same, List.map_nil, List.nil_append, List.append_nil]

protected theorem pure (result : β) : Notes next (pure result) result [] :=
  silent fun _ => rfl

theorem bind {action : Survey α} {middle : α} {parts : List Part} {proceed : α → Survey β}
    (first : Notes next action middle parts)
    (second : Notes (next + parts.length) (proceed middle) result more) :
    Notes next (action >>= proceed) result (parts ++ more) := by
  intro places taken length
  have begun := first (more.map Part.position ++ places) taken length
  have ended := second places (taken ++ parts) (by rw [List.length_append, length])
  rw [List.map_append, List.append_assoc]
  rw [List.append_assoc] at ended
  exact bind_eq_ok.mpr ⟨_, _, begun, ended⟩

theorem map {action : Survey α} {middle : α} {parts : List Part}
    (first : Notes next action middle parts) (f : α → β) :
    Notes next (action >>= fun value => Pure.pure (f value)) (f middle) parts := by
  have last : Notes (next + parts.length) (Pure.pure (f middle) : Survey β) (f middle) [] := .pure _
  rw [← List.append_nil parts]
  exact first.bind last

/-- The next value is met where it is expected, and its part is taken down. -/
theorem met (part : Part) {proceed : Position → Survey β} {rest : Survey β}
    (goes : proceed part.position = (do note part; rest))
    (later : Notes (next + 1) rest result more) :
    Notes next (meet next >>= proceed) result (part :: more) := by
  rintro places taken rfl
  have ended := later places (taken ++ [part]) List.length_append
  rw [List.append_assoc] at ended
  refine bind_eq_ok.mpr ⟨part.position, _, meet_eq_ok.mpr ⟨rfl, rfl, rfl⟩, ?_⟩
  rw [goes]
  exact bind_eq_ok.mpr ⟨(), _, note_eq_ok.mpr rfl, ended⟩

end Notes

/-! ## Attributes -/

theorem sortOut_of_clean {pairs : List (String × String)} (surveyor : Surveyor)
    (clean : ∀ pair ∈ staticPairs pairs, Placeholder.occursIn pair.1.toList = false ∧
      Placeholder.occursIn pair.2.toList = false) :
    sortOut pairs surveyor = .ok ((staticPairs pairs, markedPairs pairs), surveyor) := by
  induction pairs with
  | nil => rfl
  | cons pair pairs ih =>
    obtain ⟨name, value⟩ := pair
    cases read : Placeholder.index? value.toList with
    | some found =>
      rw [staticPairs_marked read] at clean ⊢
      rw [markedPairs_marked read]
      simp only [sortOut, read]
      exact bind_eq_ok.mpr ⟨_, _, ih clean, rfl⟩
    | none =>
      rw [staticPairs_static read, List.forall_mem_cons] at clean
      rw [staticPairs_static read, markedPairs_static read]
      simp only [sortOut, read, clean.1.1, clean.1.2, Bool.false_eq_true, if_false]
      exact bind_eq_ok.mpr ⟨_, _, ih clean.2, rfl⟩

theorem pairwise_insertBound {entry : String × Nat} {bound : List (String × Nat)}
    (sorted : bound.Pairwise fun first second => first.2 ≤ second.2) :
    (insertBound entry bound).Pairwise fun first second => first.2 ≤ second.2 := by
  induction bound with
  | nil => exact List.pairwise_singleton _ _
  | cons other rest ih =>
    obtain ⟨least, later⟩ := List.pairwise_cons.mp sorted
    unfold insertBound
    split
    · next before =>
      refine List.pairwise_cons.mpr ⟨fun next member => ?_, sorted⟩
      obtain rfl | member := List.mem_cons.mp member
      · exact before
      · exact before.trans (least next member)
    · next behind =>
      refine List.pairwise_cons.mpr ⟨fun next member => ?_, ih later⟩
      obtain rfl | member := List.mem_cons.mp ((insertBound_perm entry rest).mem_iff.mp member)
      · omega
      · exact least next member

theorem pairwise_inOrder (bound : List (String × Nat)) :
    (inOrder bound).Pairwise fun first second => first.2 ≤ second.2 := by
  induction bound with
  | nil => exact .nil
  | cons entry rest ih => exact pairwise_insertBound ih

/-- Bound attributes with indices one after another are put in this order. -/
theorem inOrder_eq {bound : List (String × Nat)} {names : List String} {next : Nat}
    (same : bound.Perm (names.zipIdx next)) : inOrder bound = names.zipIdx next := by
  have perm : (inOrder bound).Perm (names.zipIdx next) := (inOrder_perm bound).trans same
  have indices : (names.zipIdx next).map Prod.snd = List.range' next names.length :=
    List.zipIdx_map_snd next names
  have increasing : (names.zipIdx next).Pairwise fun first second => first.2 < second.2 := by
    rw [← List.pairwise_map, indices]
    exact List.pairwise_lt_range'
  refine List.Perm.eq_of_pairwise (fun first second here there atMost atLeast => ?_)
    (pairwise_inOrder bound) (increasing.imp Nat.le_of_lt) perm
  have once : ((names.zipIdx next).map Prod.snd).Nodup := by
    rw [indices]
    exact List.nodup_range'
  exact List.inj_on_of_nodup_map once (perm.mem_iff.mp here) there (Nat.le_antisymm atMost atLeast)

theorem attributes_of_cut {next : Nat} {path : Path} {bound : List (String × String)}
    (spelled : ∀ pair ∈ bound, lowerCase pair.1 = lowerCase pair.2) :
    Notes next (attributes path ((bound.map Prod.fst).zipIdx next)) () (boundParts path bound) := by
  induction bound generalizing next with
  | nil => exact .pure ()
  | cons pair bound ih =>
    rw [List.forall_mem_cons] at spelled
    refine .met (.attribute ⟨path, pair.1, pair.2⟩) ?_ (ih spelled.2)
    exact if_pos spelled.1

/-! ## Texts -/

theorem pieces_of_cut {next : Nat} {parent : Path} {index : Nat} {list : List Placeholder.Piece}
    (order : Placeholder.indices list = List.range' next (Placeholder.indices list).length) :
    Notes next (pieces parent index list) (ofPieces list).forest
      ((ofPieces list).partsAt parent index) := by
  induction list generalizing index next with
  | nil => exact .pure []
  | cons piece list ih =>
    cases piece with
    | run data => exact (ih order).map _
    | placeholder found =>
      simp only [Placeholder.indices, List.length_cons, List.range'_succ, List.cons.injEq] at order
      obtain ⟨rfl, order⟩ := order
      exact .met (.node (parent ++ [index])) rfl ((ih order).map _)

/-! ## Nodes -/

/-- A node is surveyed as told, and so are those behind it. -/
theorem Notes.cons {next : Nat} {parent : Path} {index : Nat} {first : Node} {rest : List Node}
    {here behind : List Node} {parts more : List Part}
    (own : Notes next (node parent index first) here parts)
    (others : Notes (next + parts.length) (nodes parent (index + here.length) rest) behind more) :
    Notes next (nodes parent index (first :: rest)) (here ++ behind) (parts ++ more) :=
  own.bind (others.map _)

/-- An element is surveyed if its children are. -/
theorem element_of_cut {next : Nat} {parent : Path} {index : Nat} {name : String}
    {space : Option String} {pairs bound : List (String × String)} {children inside : List Node}
    {parts : List Part} (named : Placeholder.occursIn name.toList = false)
    (clean : ∀ pair ∈ staticPairs pairs, Placeholder.occursIn pair.1.toList = false ∧
      Placeholder.occursIn pair.2.toList = false)
    (marked : (markedPairs pairs).Perm ((bound.map Prod.fst).zipIdx next))
    (spelled : ∀ pair ∈ bound, lowerCase pair.1 = lowerCase pair.2)
    (below : Notes (next + bound.length) (nodes (parent ++ [index]) 0 children) inside parts) :
    Notes next (node parent index (.element name space pairs children))
      [.element name space (staticPairs pairs) inside]
      (boundParts (parent ++ [index]) bound ++ parts) := by
  unfold node
  rw [named, if_neg Bool.false_ne_true]
  have sorted : Notes next (sortOut pairs) (staticPairs pairs, markedPairs pairs) [] :=
    .silent fun surveyor => sortOut_of_clean surveyor clean
  refine sorted.bind ?_
  dsimp only
  rw [inOrder_eq marked]
  refine (attributes_of_cut spelled).bind ?_
  rw [length_boundParts]
  exact below.map _

/-- A forest that can be cut is surveyed, and the parts are those of the stencil. -/
theorem nodes_of_cut {next : Nat} {tree : Forest} {stencil : Stencil} (cut : Cut next tree stencil)
    (parent : Path) (index : Nat) :
    Notes next (nodes parent index tree) stencil.forest (stencil.partsAt parent index) := by
  induction cut generalizing parent index with
  | done => exact .pure []
  | @element next name space pairs bound children rest below behind named clean marked spelled inside
      after ihInside ihAfter =>
    have here := @element_of_cut next parent index name space _ _ _ _ _ named clean marked spelled
      (ihInside (parent ++ [index]) 0)
    have whole := here.cons (by simpa [Nat.add_assoc] using ihAfter parent (index + 1))
    simpa [partsAt, forest] using whole
  | @text next data rest behind absent after ih =>
    have here : Notes next (node parent index (.text data)) [.text data] [] :=
      .silent fun surveyor => by simp [node, absent, pure_eq_ok]
    exact here.cons (ih parent (index + 1))
  | @pieces next data rest behind found order after ih =>
    let stencil := ofPieces (Placeholder.split data.toList)
    have here : Notes next (node parent index (.text data)) stencil.forest
        (stencil.partsAt parent index) := by
      unfold node
      rw [if_pos found]
      exact pieces_of_cut order
    have whole := here.cons (by simpa [stencil] using ih parent (index + stencil.forest.length))
    rwa [← partsAt_append, ← forest_append] at whole
  | @comment next data rest behind absent after ih =>
    have here : Notes next (node parent index (.comment data)) [.comment data] [] :=
      .silent fun surveyor => by simp [node, absent, pure_eq_ok]
    exact here.cons (ih parent (index + 1))

end Survey

/-- A forest that can be cut has a survey, which finds the stencil. -/
theorem Blueprint.survey_of_cut {tree : Forest} {stencil : Stencil} (cut : Cut 0 tree stencil) :
    Blueprint.survey (stencil.blueprint.parts.map Part.position) tree = .ok stencil.blueprint := by
  have surveyed := Survey.nodes_of_cut cut [] 0 [] [] rfl
  rw [List.append_nil, List.nil_append] at surveyed
  unfold Blueprint.survey
  rw [StateT.run, blueprint, surveyed]
  rfl

end LiveMarkup
