import LiveMarkup.Proofs.Cutting
import LiveMarkup.Proofs.Exposure
import LiveMarkup.Proofs.Genuine

/-! # Where the placeholders of a forest are

`Forest.spots` lists the placeholders of a forest, each with the name of its attribute if it is not in a
text.  If they come in order, and each where the literal has its value, the forest can be cut into a
stencil (`InOrder.exists_cut`), which is all that a survey asks for.

A placeholder that is among the spots makes a difference: with another word in its place there is
another forest (`notMem_spots_of_rewriteForest_eq`). -/

namespace LiveMarkup

open Markup Placeholder

/-! ## Spots -/

namespace Markup

mutual

def Node.spots : Node → List (Nat × Option String)
  | .element _ _ attributes children =>
    (Stencil.markedPairs attributes).map (fun entry => (entry.2, some entry.1)) ++
      Forest.spots children
  | .text data => (indices (split data.toList)).map fun index => (index, none)
  | .comment _ => []

/-- The indices of the placeholders in texts and in values, in preorder, each with the name of its
attribute if there is one. -/
def Forest.spots : List Node → List (Nat × Option String)
  | [] => []
  | tree :: rest => tree.spots ++ Forest.spots rest

end

end Markup

theorem mem_markedPairs_iff {pairs : List (String × String)} {name : String} {index : Nat} :
    (name, index) ∈ Stencil.markedPairs pairs ↔
      ∃ pair ∈ pairs, pair.1 = name ∧ index? pair.2.toList = some index := by
  simp only [Stencil.markedPairs, List.mem_filterMap, Option.map_eq_some_iff, Prod.mk.injEq]
  constructor
  · rintro ⟨pair, member, _, found, same, rfl⟩
    exact ⟨pair, member, same, found⟩
  · rintro ⟨pair, member, same, found⟩
    exact ⟨pair, member, _, found, same, rfl⟩

theorem InOrder.perm_spots {forest : Forest} {indices : List Nat} (order : InOrder forest indices) :
    ((Forest.spots forest).map Prod.fst).Perm indices := by
  induction order with
  | nil => exact .refl _
  | @element name space pairs children rest own below behind attributes _ _ inside after =>
    rw [← map_snd_markedPairs] at attributes
    have here : ((Stencil.markedPairs pairs).map fun entry => (entry.2, some entry.1)).map Prod.fst =
        (Stencil.markedPairs pairs).map Prod.snd := by simp [Function.comp_def]
    rw [Forest.spots, Node.spots, List.map_append, List.map_append, here]
    exact (attributes.append inside).append after
  | text _ after =>
    rw [Forest.spots, Node.spots, List.map_append, List.map_map]
    simpa [Function.comp_def] using after.append_left _
  | comment _ after => simpa [Forest.spots, Node.spots] using after

/-- If no index comes up twice, each is in one place only. -/
theorem InOrder.spot_unique {forest : Forest} {indices : List Nat} (order : InOrder forest indices)
    (once : indices.Nodup) {index : Nat} {place other : Option String}
    (here : (index, place) ∈ Forest.spots forest) (there : (index, other) ∈ Forest.spots forest) :
    place = other := by
  have distinct := order.perm_spots.nodup_iff.mpr once
  exact (Prod.mk.inj (List.inj_on_of_nodup_map distinct here there rfl)).2

theorem InOrder.mem_spots {forest : Forest} {indices : List Nat} (order : InOrder forest indices)
    {index : Nat} (member : index ∈ indices) : ∃ place, (index, place) ∈ Forest.spots forest := by
  obtain ⟨⟨_, place⟩, spot, rfl⟩ := List.mem_map.mp (order.perm_spots.mem_iff.mpr member)
  exact ⟨place, spot⟩

/-- A placeholder that shows is in a text. -/
theorem Markup.Forest.Shows.mem_spots {index : Nat} {forest : Forest}
    (shown : Forest.Shows index forest) (small : index < bound) :
    (index, none) ∈ Forest.spots forest :=
  match forest with
  | [] => shown.elim
  | .element _ _ _ _ :: _ => by
    obtain ⟨-, inside⟩ | later := shown
    · exact List.mem_append_left _ (List.mem_append_right _ (mem_spots inside small))
    · exact List.mem_append_right _ (mem_spots later small)
  | .text data :: _ => by
    obtain here | later := shown
    · exact List.mem_append_left _ (List.mem_map_of_mem (Sketch.mem_indices_of_infix small here))
    · exact List.mem_append_right _ (mem_spots later small)
  | .comment _ :: _ => List.mem_append_right _ (mem_spots (shown.resolve_left id) small)

/-- No attribute of the given name has a placeholder that is not among the spots. -/
theorem every_of_notMem_spots {forest : Forest} {index : Nat} {name : String}
    (absent : (index, some name) ∉ Forest.spots forest) :
    Forest.Every { element := fun _ attributes =>
      ∀ pair ∈ attributes, pair.1 = name → index? pair.2.toList ≠ some index } forest :=
  match forest with
  | [] => trivial
  | .element _ _ attributes children :: rest => by
    simp only [Forest.spots, Node.spots, List.mem_append, not_or] at absent
    refine ⟨⟨fun pair member same found => absent.1.1 ?_, every_of_notMem_spots absent.1.2⟩,
      every_of_notMem_spots absent.2⟩
    have entry : (name, index) ∈ Stencil.markedPairs attributes :=
      mem_markedPairs_iff.mpr ⟨pair, member, same, found⟩
    exact List.mem_map_of_mem (f := fun entry => (entry.2, some entry.1)) entry
  | .text _ :: _ | .comment _ :: _ => by
    simp only [Forest.spots, List.mem_append, not_or] at absent
    exact ⟨trivial, every_of_notMem_spots absent.2⟩

/-! ## Another word in one place -/

/-- Placeholders, one of which has one more brace at its front. -/
def Wording.doubled (index : Nat) : Wording where
  word other := if other = index then '{' :: chars other else chars other
  proper other := by
    split
    · exact ⟨chars other, rfl, Wording.placeholders.calm other⟩
    · exact Wording.placeholders.proper other

theorem Wording.doubled_self (index : Nat) :
    (Wording.doubled index).word index = '{' :: chars index :=
  if_pos rfl

theorem Wording.doubled_of_ne {index other : Nat} (different : other ≠ index) :
    (Wording.doubled index).word other = chars other :=
  if_neg different

/-- The text gets longer by one character for each time that the word is in it. -/
theorem length_written_doubled (index : Nat) (pieces : List Piece) :
    (pieces.flatMap (Piece.written (Wording.doubled index).word)).length =
      (pieces.flatMap (Piece.written chars)).length + (indices pieces).count index := by
  induction pieces with
  | nil => rfl
  | cons piece pieces ih =>
    cases piece with
    | run text =>
      simp only [List.flatMap_cons, List.length_append, Piece.written, indices, ih]
      omega
    | placeholder other =>
      by_cases same : other = index
      · subst same
        simp only [List.flatMap_cons, List.length_append, Piece.written, indices, ih,
          Wording.doubled_self, List.length_cons, List.count_cons_self]
        omega
      · simp only [List.flatMap_cons, List.length_append, Piece.written, indices, ih,
          Wording.doubled_of_ne same, List.count_cons_of_ne same]
        omega

/-- A word that makes no difference to a forest is the word of no spot. -/
theorem notMem_spots_of_rewriteForest_eq {index : Nat} {forest : Forest}
    (same : rewriteForest (Wording.doubled index).word forest = rewriteForest chars forest)
    (place : Option String) : (index, place) ∉ Forest.spots forest :=
  match forest with
  | [] => List.not_mem_nil
  | .element name space attributes children :: rest => by
    simp only [rewriteForest, rewriteNode, List.cons.injEq, Node.element.injEq] at same
    obtain ⟨⟨-, -, values, inside⟩, behind⟩ := same
    simp only [Forest.spots, Node.spots, List.mem_append, not_or]
    refine ⟨⟨fun member => ?_, notMem_spots_of_rewriteForest_eq inside place⟩,
      notMem_spots_of_rewriteForest_eq behind place⟩
    obtain ⟨⟨key, other⟩, entry, spot⟩ := List.mem_map.mp member
    obtain rfl : other = index := (Prod.mk.inj spot).1
    obtain ⟨pair, listed, -, found⟩ := mem_markedPairs_iff.mp entry
    have value := (Prod.mk.inj (List.map_inj_left.mp values pair listed)).2
    simp only [rewriteValue, found, String.ofList_inj, Wording.doubled_self] at value
    exact absurd (congrArg List.length value) (by simp)
  | .text data :: rest => by
    simp only [rewriteForest, rewriteNode, rewriteText, List.cons.injEq, Node.text.injEq,
      String.ofList_inj] at same
    obtain ⟨text, behind⟩ := same
    have longer := length_written_doubled index (split data.toList)
    rw [show (split data.toList).flatMap (Piece.written (Wording.doubled index).word) = _ from text]
      at longer
    have none : (indices (split data.toList)).count index = 0 := by
      unfold rewrite at longer
      omega
    simp only [Forest.spots, Node.spots, List.mem_append, not_or]
    refine ⟨fun member => ?_, notMem_spots_of_rewriteForest_eq behind place⟩
    obtain ⟨other, listed, spot⟩ := List.mem_map.mp member
    obtain rfl : other = index := (Prod.mk.inj spot).1
    exact List.count_eq_zero.mp none listed
  | .comment data :: rest => by
    simp only [rewriteForest, rewriteNode, List.cons.injEq, true_and] at same
    simpa [Forest.spots, Node.spots] using notMem_spots_of_rewriteForest_eq same place

/-! ## Cutting -/

/-- The position is that of a placeholder in this place, where the parser may spell the name of the
attribute otherwise. -/
def Position.Fits (position : Position) : Option String → Prop
  | none => position = .child
  | some name => ∃ rawName, position = .attribute rawName ∧ lowerCase name = lowerCase rawName

/-- The name of an attribute as it is written. -/
def Position.rawName : Position → String
  | .attribute rawName => rawName
  | .child => ""

/-- No name, no comment and no part of a value has the start of a placeholder in it. -/
def undisturbed : NodeSpec where
  element name attributes := occursIn name.toList = false ∧ ∀ pair ∈ attributes,
    occursIn pair.1.toList = false ∧ (index? pair.2.toList = none → occursIn pair.2.toList = false)
  comment data := occursIn data.toList = false

/-- The positions that the literal has for these placeholders. -/
def positionsAt (places : List Position) (indices : List Nat) : List Position :=
  indices.map fun index => places.getD index .child

theorem positionsAt_append (places : List Position) (first second : List Nat) :
    positionsAt places (first ++ second) = positionsAt places first ++ positionsAt places second :=
  List.map_append

theorem positionsAt_range (places : List Position) :
    positionsAt places (List.range places.length) = places := by
  refine List.ext_getElem (by simp [positionsAt]) fun index _ less => ?_
  simp [positionsAt, less]

theorem range'_of_append {first second : List Nat} {next : Nat}
    (consecutive : first ++ second = List.range' next (first ++ second).length) :
    first = List.range' next first.length ∧
      second = List.range' (next + first.length) second.length := by
  rw [List.length_append, ← List.range'_append_1] at consecutive
  exact List.append_inj consecutive (by simp)

theorem zipIdx_map_fst {entries : List (String × Nat)} {next : Nat}
    (consecutive : entries.map Prod.snd = List.range' next entries.length) :
    (entries.map Prod.fst).zipIdx next = entries := by
  induction entries generalizing next with
  | nil => rfl
  | cons entry entries ih =>
    simp only [List.map_cons, List.length_cons, List.range'_succ, List.cons.injEq] at consecutive
    obtain ⟨rfl, rest⟩ := consecutive
    rw [List.map_cons, List.zipIdx_cons, ih rest]

/-- Values with consecutive indices are bound in the order of these. -/
theorem exists_bound {marked : List (String × Nat)} {own : List Nat} {next : Nat}
    (same : (marked.map Prod.snd).Perm own) (consecutive : own = List.range' next own.length)
    {places : List Position} (fits : ∀ entry ∈ marked,
      ∃ position, places[entry.2]? = some position ∧ position.Fits (some entry.1)) :
    ∃ bound : List (String × String), marked.Perm ((bound.map Prod.fst).zipIdx next) ∧
      (∀ pair ∈ bound, lowerCase pair.1 = lowerCase pair.2) ∧ bound.length = own.length ∧
      bound.map (fun pair => Position.attribute pair.2) = positionsAt places own := by
  have perm := Survey.inOrder_perm marked
  have indices : (Survey.inOrder marked).map Prod.snd = own := by
    refine List.Perm.eq_of_pairwise (fun _ _ _ _ => Nat.le_antisymm)
      (List.pairwise_map.mpr (Survey.pairwise_inOrder marked)) ?_ ((perm.map Prod.snd).trans same)
    rw [consecutive]
    exact (List.pairwise_lt_range' (s := next)).imp Nat.le_of_lt
  have length : (Survey.inOrder marked).length = own.length := by
    rw [← indices, List.length_map]
  -- The name as it is written is looked up among the positions.
  let written (index : Nat) : String := (places.getD index .child).rawName
  have found (entry : String × Nat) (member : entry ∈ Survey.inOrder marked) :
      lowerCase entry.1 = lowerCase (written entry.2) ∧
        Position.attribute (written entry.2) = places.getD entry.2 .child := by
    obtain ⟨_, here, rawName, rfl, spelled⟩ := fits entry (perm.mem_iff.mp member)
    have place : places.getD entry.2 .child = .attribute rawName := by simp [here]
    simp only [written, place, Position.rawName]
    exact ⟨spelled, trivial⟩
  have names : ((Survey.inOrder marked).map fun entry => (entry.1, written entry.2)).map Prod.fst =
      (Survey.inOrder marked).map Prod.fst := by simp
  refine ⟨(Survey.inOrder marked).map fun entry => (entry.1, written entry.2), ?_, ?_, ?_, ?_⟩
  · rw [names, zipIdx_map_fst (by rw [indices, length]; exact consecutive)]
    exact perm.symm
  · rw [List.forall_mem_map]
    exact fun entry member => (found entry member).1
  · rw [List.length_map, length]
  · rw [← indices, positionsAt, List.map_map, List.map_map]
    exact List.map_congr_left fun entry member => (found entry member).2

theorem position_partsAt_ofPieces (pieces : List Piece) (parent : Path) (index : Nat) :
    ((Stencil.ofPieces pieces).partsAt parent index).map Part.position =
      (indices pieces).map fun _ => Position.child := by
  induction pieces generalizing index with
  | nil => rfl
  | cons piece pieces ih =>
    cases piece with
    | run text => exact ih (index + 1)
    | placeholder found => exact congrArg (Position.child :: ·) (ih (index + 1))

/-- A forest whose placeholders come in order, each where the literal has its value, can be cut. -/
theorem InOrder.exists_cut {forest : Forest} {indices : List Nat} (order : InOrder forest indices)
    {next : Nat} (consecutive : indices = List.range' next indices.length)
    (clean : Forest.Every undisturbed forest) {places : List Position}
    (fits : ∀ spot ∈ Forest.spots forest,
      ∃ position, places[spot.1]? = some position ∧ position.Fits spot.2) :
    ∃ stencil, Stencil.Cut next forest stencil ∧ stencil.count = indices.length ∧
      ∀ parent index, (stencil.partsAt parent index).map Part.position =
        positionsAt places indices := by
  induction order generalizing next with
  | nil => exact ⟨.done, .done, rfl, fun _ _ => rfl⟩
  | @element name space pairs children rest own below behind attributes _ _ ihInside ihAfter =>
    simp only [Forest.spots, Node.spots, List.forall_mem_append, List.forall_mem_map] at fits
    obtain ⟨⟨fitsHere, fitsInside⟩, fitsAfter⟩ := fits
    -- The indices are those of the attributes, then those inside, then those behind.
    obtain ⟨front, consecutiveBehind⟩ := range'_of_append consecutive
    obtain ⟨consecutiveOwn, consecutiveBelow⟩ := range'_of_append front
    rw [← map_snd_markedPairs] at attributes
    obtain ⟨bound, marked, spelled, boundLength, boundPlaces⟩ :=
      exists_bound attributes consecutiveOwn fitsHere
    obtain ⟨inside, cutInside, countInside, placesInside⟩ :=
      ihInside consecutiveBelow clean.1.2 fitsInside
    rw [List.length_append, ← Nat.add_assoc] at consecutiveBehind
    obtain ⟨after, cutAfter, countAfter, placesAfter⟩ :=
      ihAfter consecutiveBehind clean.2 fitsAfter
    refine ⟨.element name space (Stencil.staticPairs pairs) bound inside after, ?_, ?_, ?_⟩
    · refine .element clean.1.1.1 (fun pair member => ?_) marked spelled ?_ ?_
      · obtain ⟨listed, static⟩ := List.mem_filter.mp member
        obtain ⟨named, whole⟩ := clean.1.1.2 pair listed
        exact ⟨named, whole (by simpa using static)⟩
      · rwa [boundLength]
      · rwa [boundLength, countInside]
    · simp only [Stencil.count, List.length_append]
      omega
    · intro parent index
      have here : (Stencil.boundParts (parent ++ [index]) bound).map Part.position =
          positionsAt places own := by
        rw [← boundPlaces]
        simp [Stencil.boundParts, Part.position]
      rw [Stencil.partsAt, List.map_append, List.map_append, here, placesInside, placesAfter,
        positionsAt_append, positionsAt_append, List.append_assoc]
  | @text data rest behind _ ih =>
    simp only [Forest.spots, Node.spots, List.forall_mem_append, List.forall_mem_map] at fits
    obtain ⟨fitsHere, fitsAfter⟩ := fits
    obtain ⟨consecutiveOwn, consecutiveBehind⟩ := range'_of_append consecutive
    obtain ⟨after, cutAfter, countAfter, placesAfter⟩ := ih consecutiveBehind clean.2 fitsAfter
    have children : positionsAt places (Placeholder.indices (split data.toList)) =
        (Placeholder.indices (split data.toList)).map fun _ => Position.child := by
      refine List.map_congr_left fun index member => ?_
      obtain ⟨position, here, fit⟩ := fitsHere index member
      obtain rfl : position = .child := fit
      simp [here]
    -- Only a text with the start of a placeholder in it is split.
    cases found : occursIn data.toList with
    | false =>
      have none := Placeholder.indices_split_of_not_occursIn found
      rw [none, List.nil_append]
      rw [none, List.length_nil, Nat.add_zero] at cutAfter
      exact ⟨.text data after, .text found cutAfter, countAfter,
        fun parent index => placesAfter parent (index + 1)⟩
    | true =>
      refine ⟨.ofPieces (split data.toList) ++ after, .pieces found consecutiveOwn cutAfter, ?_, ?_⟩
      · simp [countAfter]
      · intro parent index
        rw [Stencil.partsAt_append, List.map_append, position_partsAt_ofPieces, placesAfter,
          positionsAt_append, children]
  | @comment data rest behind _ ih =>
    simp only [Forest.spots, Node.spots, List.nil_append] at fits
    obtain ⟨after, cutAfter, countAfter, placesAfter⟩ := ih consecutive clean.2 fits
    exact ⟨.comment data after, .comment clean.1 cutAfter, countAfter,
      fun parent index => placesAfter parent (index + 1)⟩

end LiveMarkup
