import LiveMarkup.Proofs.Compilation
import LiveMarkup.Proofs.Nesting
import Mathlib.Data.List.Sort

/-! # Words in a forest

A forest that a blueprint was cut from, with words in place of its placeholders, is the blueprint with
the words in its parts, if its attributes are put in order again (`ordered_weave`).

Writing letters in braces for placeholders makes no new placeholder out of what is around them
(`plain_rewrite`). -/

namespace LiveMarkup

open Markup

-- The forest of a text that is not known is never worked out.
attribute [local irreducible] Forest.parse

/-! ## Words -/

/-- Letters in braces. -/
def IsWord (word : List Char) : Prop :=
  ∃ letters, letters ≠ [] ∧ (∀ c ∈ letters, c.isLower = true) ∧ word = '{' :: (letters ++ ['}'])

namespace Placeholder

theorem read?_cons_of_ne {c : Char} (other : c ≠ '{') (rest : List Char) :
    read? (c :: rest) = none := by
  cases read : read? (c :: rest) with
  | none => rfl
  | some found =>
    obtain ⟨digits, same, -⟩ := read?_eq_some_iff.mp read
    rw [opening_eq] at same
    exact absurd (List.cons.inj same).1 other

theorem read?_single_brace {c : Char} (other : c ≠ '{') (rest : List Char) :
    read? ('{' :: c :: rest) = none := by
  cases read : read? ('{' :: c :: rest) with
  | none => rfl
  | some found =>
    obtain ⟨digits, same, -⟩ := read?_eq_some_iff.mp read
    rw [opening_eq] at same
    exact absurd (List.cons.inj (List.cons.inj same).2).1 other

end Placeholder

open Placeholder

namespace IsWord

variable {word : List Char}

theorem ne_nil (isWord : IsWord word) : word ≠ [] := by
  obtain ⟨letters, -, -, rfl⟩ := isWord
  exact List.cons_ne_nil _ _

/-- No placeholder begins with a word. -/
theorem read?_append (isWord : IsWord word) (rest : List Char) : read? (word ++ rest) = none := by
  obtain ⟨letters, filled, lower, rfl⟩ := isWord
  obtain ⟨first, more, rfl⟩ := List.exists_cons_of_ne_nil filled
  refine read?_single_brace ?_ _
  rintro rfl
  exact absurd (lower '{' List.mem_cons_self) (by decide)

theorem index?_eq_none (isWord : IsWord word) : index? word = none := by
  have read := isWord.read?_append []
  rw [List.append_nil] at read
  rw [index?, read]

/-- A word in front makes no placeholder. -/
theorem plain_append (isWord : IsWord word) {rest : List Char} (plain : Plain rest) :
    Plain (word ++ rest) := by
  have first := isWord.read?_append rest
  obtain ⟨letters, -, lower, rfl⟩ := isWord
  refine ⟨first, ?_⟩
  clear first
  induction letters with
  | nil => exact ⟨read?_cons_of_ne (by decide) _, plain⟩
  | cons letter letters ih =>
    rw [List.forall_mem_cons] at lower
    refine ⟨read?_cons_of_ne ?_ _, ih lower.2⟩
    rintro rfl
    exact absurd lower.1 (by decide)

/-- The second brace of a placeholder is not the first one of a word. -/
theorem append_ne (isWord : IsWord word) (rest behind : List Char) :
    word ++ rest ≠ opening.drop 1 ++ behind := by
  obtain ⟨letters, -, lower, rfl⟩ := isWord
  intro same
  have letter : ∀ c ∈ "stencil".toList, c.isLower = true :=
    List.all_eq_true.mp (by decide)
  have front : opening.drop 1 ++ behind = '{' :: ("stencil".toList ++ '-' :: ("part-".toList ++ behind)) := by
    rw [opening_eq]
    rfl
  rw [front, List.cons_append, List.cons.injEq, List.append_assoc] at same
  have tails := congrArg (List.dropWhile Char.isLower) same.2
  rw [List.dropWhile_append_of_pos lower, List.dropWhile_append_of_pos letter] at tails
  simp at tails

end IsWord

namespace Placeholder

variable {word : Nat → List Char}

theorem rewrite_nil : rewrite word [] = [] := by
  simp [rewrite]

theorem rewrite_of_read? {text rest : List Char} {index : Nat}
    (read : read? text = some (index, rest)) : rewrite word text = word index ++ rewrite word rest := by
  rw [rewrite, split_of_read? read]
  rfl

theorem rewrite_of_read?_none {c : Char} {rest : List Char} (absent : read? (c :: rest) = none) :
    rewrite word (c :: rest) = c :: rewrite word rest := by
  rw [rewrite, split_of_read?_none absent, flatMap_cons_written, rewrite]

variable (words : ∀ index, IsWord (word index))

include words

/-- Whatever has no brace in it has not been rewritten. -/
theorem exists_eq_append_of_rewrite {front text behind : List Char} (braceless : '{' ∉ front)
    (same : rewrite word text = front ++ behind) : ∃ rest, text = front ++ rest := by
  induction front generalizing text with
  | nil => exact ⟨text, rfl⟩
  | cons c front ih =>
    rw [List.mem_cons, not_or] at braceless
    cases text with
    | nil => simp [rewrite_nil] at same
    | cons d text =>
      cases read : read? (d :: text) with
      | some found =>
        obtain ⟨letters, -, -, spelled⟩ := words found.1
        rw [rewrite_of_read? read, spelled, List.cons_append, List.cons_append] at same
        exact absurd (List.cons.inj same).1 braceless.1
      | none =>
        rw [rewrite_of_read?_none read, List.cons_append, List.cons.injEq] at same
        obtain ⟨rfl, same⟩ := same
        obtain ⟨rest, rfl⟩ := ih braceless.2 same
        exact ⟨rest, rfl⟩

/-- No placeholder begins where none has begun before. -/
theorem read?_cons_rewrite {c : Char} {text : List Char} (absent : read? (c :: text) = none) :
    read? (c :: rewrite word text) = none := by
  cases read : read? (c :: rewrite word text) with
  | none => rfl
  | some found =>
    obtain ⟨digits, same, filled, allDigits, value, small⟩ := read?_eq_some_iff.mp read
    have opens : opening = '{' :: opening.drop 1 := by rw [opening_eq]; rfl
    rw [opens, List.cons_append, List.cons.injEq] at same
    obtain ⟨rfl, same⟩ := same
    cases text with
    | nil =>
      rw [rewrite_nil, opening_eq] at same
      cases same
    | cons d text =>
      cases readNext : read? (d :: text) with
      | some next =>
        rw [rewrite_of_read? readNext] at same
        exact absurd same ((words next.1).append_ne _ _)
      | none =>
        have second : opening.drop 1 = '{' :: opening.drop 2 := by rw [opening_eq]; rfl
        rw [rewrite_of_read?_none readNext, second, List.cons_append, List.cons.injEq] at same
        obtain ⟨rfl, same⟩ := same
        -- Behind the two braces a placeholder has no other one, so no word is in it.
        have braceless : '{' ∉ opening.drop 2 ++ (digits ++ closing) := by
          simp only [opening_eq, closing, List.mem_append, not_or]
          refine ⟨by decide, fun member => ?_, by decide⟩
          exact absurd (allDigits _ member) (by decide)
        have front : rewrite word text = opening.drop 2 ++ (digits ++ closing) ++ found.2 := by
          simpa using same
        obtain ⟨rest, rfl⟩ := exists_eq_append_of_rewrite words braceless front
        have again : read? ('{' :: '{' :: (opening.drop 2 ++ (digits ++ closing) ++ rest)) =
            some (found.1, rest) := by
          refine read?_eq_some_iff.mpr ⟨digits, ?_, filled, allDigits, value, small⟩
          rw [opens, second]
          simp
        rw [again] at absent
        cases absent

/-- Words leave no placeholder. -/
theorem plain_rewrite (text : List Char) : Plain (rewrite word text) := by
  induction measure : text.length using Nat.strong_induction_on generalizing text with
  | _ size ih =>
    subst measure
    cases text with
    | nil =>
      rw [rewrite_nil]
      trivial
    | cons c text =>
      cases read : read? (c :: text) with
      | some found =>
        rw [rewrite_of_read? read]
        exact (words found.1).plain_append (ih _ (read?_length read) _ rfl)
      | none =>
        rw [rewrite_of_read?_none read]
        exact ⟨read?_cons_rewrite words read, ih _ (by simp) _ rfl⟩

theorem rewrite_ne_nil {text : List Char} (filled : text ≠ []) : rewrite word text ≠ [] := by
  obtain ⟨c, rest, rfl⟩ := List.exists_cons_of_ne_nil filled
  cases read : read? (c :: rest) with
  | some found =>
    rw [rewrite_of_read? read]
    exact List.append_ne_nil_of_left_ne_nil (words found.1).ne_nil _
  | none =>
    rw [rewrite_of_read?_none read]
    exact List.cons_ne_nil _ _

end Placeholder

/-! ## Forests without placeholders -/

/-- No text has a placeholder in it and no attribute has one as its value. -/
def unmarked : NodeSpec where
  element _ attributes := ∀ pair ∈ attributes, index? pair.2.toList = none
  text data := Plain data.toList

abbrev Markup.Forest.Unmarked (forest : Forest) : Prop :=
  Forest.Every unmarked forest

section

variable {word : Nat → List Char} (words : ∀ index, IsWord (word index))

include words

theorem index?_rewriteValue (value : String) : index? (rewriteValue word value).toList = none := by
  unfold rewriteValue
  cases found : index? value.toList with
  | none => exact found
  | some index => simpa using (words index).index?_eq_none

theorem unmarked_rewriteForest (forest : Forest) : Forest.Unmarked (rewriteForest word forest) :=
  match forest with
  | [] => trivial
  | .element _ _ attributes children :: rest => by
    refine ⟨⟨fun pair member => ?_, unmarked_rewriteForest children⟩, unmarked_rewriteForest rest⟩
    obtain ⟨other, -, rfl⟩ := List.mem_map.mp member
    exact index?_rewriteValue words other.2
  | .text data :: rest => by
    refine ⟨?_, unmarked_rewriteForest rest⟩
    simpa [unmarked, rewriteNode, Node.Every, rewriteText] using plain_rewrite words data.toList
  | .comment _ :: rest => ⟨trivial, unmarked_rewriteForest rest⟩

theorem Markup.Settled.rewriteForest {forest : Forest} (settled : Settled forest) :
    Settled (rewriteForest word forest) := by
  induction settled with
  | nil => exact .nil
  | element _ _ inside after => exact .element inside after
  | @text data rest filled apart _ after =>
    refine .text (fun empty => ?_) (fun next first => ?_) after
    · rw [rewriteText, ← String.toList_inj, String.toList_ofList] at empty
      refine rewrite_ne_nil words (fun none => filled ?_) empty
      exact String.toList_inj.mp none
    · cases rest with
      | nil => cases first
      | cons tree rest =>
        cases first
        have other := apart tree rfl
        cases tree with
        | text _ => cases other
        | _ => rfl
  | comment _ after => exact .comment after

end

theorem every_sorted_rewriteForest {word : Nat → List Char} {forest : Forest}
    (sorted : Forest.Every { element := fun _ => Sorted } forest) :
    Forest.Every { element := fun _ => Sorted } (rewriteForest word forest) :=
  match forest with
  | [] => trivial
  | .element _ _ _ _ :: _ =>
    ⟨⟨by simpa [Sorted, Function.comp_def] using sorted.1.1, every_sorted_rewriteForest sorted.1.2⟩,
      every_sorted_rewriteForest sorted.2⟩
  | .text _ :: _ | .comment _ :: _ => ⟨trivial, every_sorted_rewriteForest sorted.2⟩

/-! ## Putting attributes in order -/

/-- Attributes by name. -/
def byName (first second : String × String) : Prop :=
  first.1 ≤ second.1

instance : DecidableRel byName :=
  fun first second => inferInstanceAs (Decidable (first.1 ≤ second.1))

instance : Std.Total byName where
  total _ _ := String.le_total _ _

instance : IsTrans (String × String) byName where
  trans _ _ _ := String.le_trans

/-- Attributes with different names have one order only. -/
theorem Markup.Sorted.insertionSort_eq {sorted attributes : List (String × String)}
    (order : Sorted sorted) (same : sorted.Perm attributes) :
    attributes.insertionSort byName = sorted := by
  have perm : (attributes.insertionSort byName).Perm sorted :=
    (List.perm_insertionSort byName attributes).trans same.symm
  refine List.Perm.eq_of_pairwise (fun first second here there least greatest => ?_)
    (List.pairwise_insertionSort byName attributes) ?_ perm
  · exact List.inj_on_of_nodup_map order.nodup (perm.mem_iff.mp here) there
      (String.le_antisymm least greatest)
  · refine (List.pairwise_map.mp order).imp fun less => String.not_lt.mp fun greater => ?_
    exact String.lt_irrefl _ (String.lt_trans less greater)

namespace Markup

mutual

def Node.ordered : Node → Node
  | .element name space attributes children =>
    .element name space (attributes.insertionSort byName) (Forest.ordered children)
  | .text data => .text data
  | .comment data => .comment data

/-- The forest with the attributes of each element in the order of their names. -/
def Forest.ordered : List Node → Forest
  | [] => []
  | tree :: rest => tree.ordered :: Forest.ordered rest

end

end Markup

theorem Alike.ordered_eq {sorted forest : Forest} (alike : Alike sorted forest)
    (order : Forest.Every { element := fun _ => Sorted } sorted) : Forest.ordered forest = sorted := by
  induction alike with
  | nil => rfl
  | element same _ _ inside after =>
    rw [Forest.ordered, Node.ordered, order.1.1.insertionSort_eq same, inside order.1.2,
      after order.2]
  | text _ after | comment _ after => rw [Forest.ordered, Node.ordered, after order.2]

/-- A blueprint of the standard parser with words in its parts is the forest that it was cut from
with words for its placeholders. -/
theorem ordered_weave {segments : List String} {blueprint : Blueprint}
    (compiled : Blueprint.compile .standard segments = .ok blueprint) {word : Nat → List Char}
    (words : ∀ index, IsWord (word index)) :
    Forest.ordered (Forest.merge (blueprint.weave (wordFillings word 0 blueprint.parts.length))) =
      rewriteForest word (Forest.parse (join segments)) := by
  obtain ⟨forest, stencil, -, parsed, rfl, cut⟩ := Blueprint.compile_eq_ok compiled
  obtain rfl : Forest.parse (join segments) = forest := Except.ok.inj parsed
  have alike := cut.alike word (Nat.le_refl _)
  rw [((Forest.settled_parse _).rewriteForest words).merge] at alike
  have parts : stencil.blueprint.parts.length = stencil.count :=
    Stencil.length_partsAt stencil [] 0
  rw [Stencil.weave_blueprint, parts]
  exact alike.ordered_eq (every_sorted_rewriteForest (Forest.sorted_parse _))

/-! ## The first of several attributes with one name -/

namespace Markup

theorem mem_insertAttribute_iff {name value : String} {attributes : List (String × String)}
    (sorted : Sorted attributes) {pair : String × String} :
    pair ∈ insertAttribute name value attributes ↔
      pair ∈ attributes ∨ pair = (name, value) ∧ ∀ other ∈ attributes, other.1 ≠ name := by
  induction attributes with
  | nil => simp [insertAttribute]
  | cons first attributes ih =>
    obtain ⟨least, rest⟩ := List.pairwise_cons.mp sorted
    have later : ∀ other ∈ attributes, first.1 < other.1 := fun other member =>
      least _ (List.mem_map_of_mem member)
    unfold insertAttribute
    split
    · next less =>
      -- Then all the others come later, too.
      have absent : ∀ other ∈ first :: attributes, other.1 ≠ name := by
        rintro other member rfl
        obtain rfl | member := List.mem_cons.mp member
        · exact String.lt_irrefl _ less
        · exact String.lt_irrefl _ (String.lt_trans less (later other member))
      rw [List.mem_cons, or_comm, and_iff_left absent]
    split
    · next same =>
      have present : ¬ ∀ other ∈ first :: attributes, other.1 ≠ name := fun absent =>
        absent first List.mem_cons_self same.symm
      rw [iff_self_or]
      exact fun contrary => absurd contrary.2 present
    next notLess different =>
    rw [List.mem_cons, List.mem_cons, List.forall_mem_cons, ih rest, or_assoc]
    have apart : first.1 ≠ name := Ne.symm different
    rw [and_iff_right apart]

/-- Of several attributes with one name the first counts. -/
theorem mem_sortAttributes_iff {attributes : List (String × String)} {pair : String × String} :
    pair ∈ sortAttributes attributes ↔
      attributes.find? (fun other => other.1 = pair.1) = some pair := by
  induction attributes using List.reverseRecOn generalizing pair with
  | nil => simp [sortAttributes]
  | append_singleton front last ih =>
    have sorted := sorted_sortAttributes front
    have step : sortAttributes (front ++ [last]) =
        insertAttribute last.1 last.2 (sortAttributes front) := by
      simp [sortAttributes, List.foldl_append]
    rw [step, mem_insertAttribute_iff sorted, List.find?_append, Option.or_eq_some_iff, ih]
    refine or_congr Iff.rfl ?_
    constructor
    · rintro ⟨rfl, absent⟩
      refine ⟨?_, by simp⟩
      cases found : front.find? fun other => other.1 = last.1 with
      | none => rfl
      | some earlier =>
        have same : earlier.1 = last.1 := by simpa using List.find?_some found
        rw [← same] at found
        exact absurd same (absent earlier (ih.mpr found))
    · rintro ⟨none, found⟩
      obtain rfl := List.mem_singleton.mp (List.mem_of_find?_eq_some found)
      refine ⟨rfl, fun other member equal => ?_⟩
      have earlier := ih.mp member
      rw [equal, none] at earlier
      cases earlier

theorem mem_sortAttributes_map_iff {α : Type} {list : List α} {toPair : α → String × String}
    {pair : String × String} :
    pair ∈ sortAttributes (list.map toPair) ↔
      ∃ x, list.find? (fun y => (toPair y).1 = (toPair x).1) = some x ∧ toPair x = pair := by
  rw [mem_sortAttributes_iff, List.find?_map, Option.map_eq_some_iff]
  constructor
  · rintro ⟨x, found, rfl⟩
    exact ⟨x, found, rfl⟩
  · rintro ⟨x, found, rfl⟩
    exact ⟨x, found, rfl⟩

/-- Sorted attributes are told apart by which there are. -/
theorem Sorted.ext {first second : List (String × String)} (sorted : Sorted first)
    (sorted' : Sorted second) (same : ∀ pair, pair ∈ first ↔ pair ∈ second) : first = second := by
  have perm : first.Perm second :=
    (List.perm_ext_iff_of_nodup sorted.nodup.of_map sorted'.nodup.of_map).mpr same
  rw [← sorted.insertionSort_eq perm, sorted'.insertionSort_eq (.refl _)]

end Markup

end LiveMarkup
