import LiveMarkup.Proofs.Survey

/-! # Sketches of texts

A sketch is a text with holes for words.  The markup of a literal is a sketch with placeholders in
its holes, and other words can be written there instead.

A word starts with a brace and goes on with characters that mean nothing special in markup.  If a
sketch filled with some words holds no placeholder, then filled with placeholders it holds no others
than these (`split_fill`). -/

namespace LiveMarkup

open Markup Placeholder

/-! ## Words -/

/-- Letters, digits and braces: characters without a special meaning anywhere in markup. -/
def isCalm (c : Char) : Bool :=
  c.isLower || c.isDigit || c == '{' || c == '}'

/-- A text of such characters, and of single dashes in front of them. -/
inductive Calm : List Char → Prop where
  | nil : Calm []
  | cons {c : Char} {rest : List Char} (calm : isCalm c = true) (after : Calm rest) :
      Calm (c :: rest)
  | dash {c : Char} {rest : List Char} (calm : isCalm c = true) (after : Calm rest) :
      Calm ('-' :: c :: rest)

theorem Calm.of_forall {text : List Char} (calm : ∀ c ∈ text, isCalm c = true) : Calm text := by
  induction text with
  | nil => exact .nil
  | cons c text ih =>
    exact .cons (calm c List.mem_cons_self)
      (ih fun other member => calm other (List.mem_cons_of_mem c member))

/-- The characters of a calm text are calm, except for dashes. -/
theorem Calm.forall {text : List Char} (calm : Calm text) :
    ∀ c ∈ text, isCalm c = true ∨ c = '-' := by
  induction calm with
  | nil => nofun
  | cons calm _ ih =>
    intro c member
    obtain rfl | member := List.mem_cons.mp member
    · exact .inl calm
    · exact ih c member
  | dash calm _ ih =>
    intro c member
    obtain rfl | member := List.mem_cons.mp member
    · exact .inr rfl
    obtain rfl | member := List.mem_cons.mp member
    · exact .inl calm
    · exact ih c member

/-- What is written into the holes of a sketch. -/
structure Wording where
  word : Nat → List Char
  proper : ∀ index, ∃ rest, word index = '{' :: rest ∧ Calm rest

namespace Wording

/-- The placeholders themselves. -/
def placeholders : Wording where
  word := Placeholder.chars
  proper index := by
    have digit : ∀ c ∈ Nat.toDigits 10 index, isCalm c = true := fun c member => by
      simp [isCalm, Placeholder.isDigit_of_mem_digits member]
    obtain ⟨first, more, digits⟩ := List.exists_cons_of_ne_nil (@Nat.toDigits_ne_nil index 10)
    rw [digits] at digit
    have numbered : Calm (more ++ Placeholder.closing) := by
      refine .of_forall fun c member => ?_
      obtain member | member := List.mem_append.mp member
      · exact digit c (List.mem_cons_of_mem _ member)
      · simp only [Placeholder.closing, List.mem_cons, List.not_mem_nil, or_false] at member
        obtain rfl | rfl := member <;> rfl
    rw [Placeholder.chars, Placeholder.opening_eq, digits]
    refine ⟨_, rfl, ?_⟩
    refine .cons rfl (.cons rfl (.cons rfl (.cons rfl (.cons rfl (.cons rfl (.cons rfl (.cons rfl
      (.dash rfl (.cons rfl (.cons rfl (.cons rfl (.dash ?_ numbered))))))))))))
    exact digit first List.mem_cons_self

/-- Letters in braces, more of them than the given size, and in each word more than in the one
before. -/
def long (size : Nat) : Wording where
  word index := '{' :: (List.replicate (size + index) 'a' ++ ['}'])
  proper index := by
    refine ⟨_, rfl, .of_forall fun c member => ?_⟩
    obtain member | member := List.mem_append.mp member
    · rw [List.eq_of_mem_replicate member]
      rfl
    · rw [List.mem_singleton.mp member]
      rfl

theorem word_placeholders (index : Nat) : placeholders.word index = Placeholder.chars index :=
  rfl

theorem word_ne_nil (wording : Wording) (index : Nat) : wording.word index ≠ [] := by
  obtain ⟨rest, same, -⟩ := wording.proper index
  simp [same]

end Wording

/-! ## Sketches -/

/-- A character, or a hole for the word with the given index. -/
inductive Glyph where
  | char (c : Char)
  | hole (index : Nat)
  deriving DecidableEq, Repr

abbrev Sketch :=
  List Glyph

namespace Sketch

/-- A text without holes. -/
def ofText (text : List Char) : Sketch :=
  text.map .char

/-- The holes in order. -/
def holes : Sketch → List Nat
  | [] => []
  | .char _ :: rest => holes rest
  | .hole index :: rest => index :: holes rest

/-- The text with words in the holes. -/
def fill (wording : Wording) : Sketch → List Char
  | [] => []
  | .char c :: rest => c :: fill wording rest
  | .hole index :: rest => wording.word index ++ fill wording rest

section

variable (wording : Wording) (sketch more : Sketch) (text : List Char) (c : Char) (index : Nat)

@[simp] theorem fill_nil : fill wording [] = [] :=
  rfl

@[simp] theorem fill_char : fill wording (.char c :: sketch) = c :: fill wording sketch :=
  rfl

@[simp] theorem fill_hole :
    fill wording (.hole index :: sketch) = wording.word index ++ fill wording sketch :=
  rfl

@[simp] theorem fill_append :
    fill wording (sketch ++ more) = fill wording sketch ++ fill wording more := by
  induction sketch with
  | nil => rfl
  | cons glyph sketch ih => cases glyph <;> simp [ih]

@[simp] theorem fill_ofText : fill wording (ofText text) = text := by
  induction text with
  | nil => rfl
  | cons c text ih => simpa [ofText] using ih

@[simp] theorem holes_nil : holes [] = [] :=
  rfl

@[simp] theorem holes_char : holes (.char c :: sketch) = holes sketch :=
  rfl

@[simp] theorem holes_hole : holes (.hole index :: sketch) = index :: holes sketch :=
  rfl

@[simp] theorem holes_append : holes (sketch ++ more) = holes sketch ++ holes more := by
  induction sketch with
  | nil => rfl
  | cons glyph sketch ih => cases glyph <;> simp [ih]

@[simp] theorem holes_ofText : holes (ofText text) = [] := by
  induction text with
  | nil => rfl
  | cons c text ih => simpa [ofText] using ih

end

variable {wording other : Wording} {sketch sketch' : Sketch}

/-- Only the words of the holes have a part in a text. -/
theorem fill_congr (same : ∀ index ∈ holes sketch, wording.word index = other.word index) :
    fill wording sketch = fill other sketch := by
  induction sketch with
  | nil => rfl
  | cons glyph sketch ih =>
    cases glyph with
    | char c => rw [fill_char, fill_char, ih same]
    | hole index =>
      rw [holes_hole, List.forall_mem_cons] at same
      rw [fill_hole, fill_hole, same.1, ih same.2]

/-- Words have no part in a text without holes. -/
theorem fill_of_holes_eq_nil (whole : holes sketch = []) :
    fill wording sketch = fill other sketch :=
  fill_congr (by simp [whole])

theorem fill_eq_nil_iff : fill wording sketch = [] ↔ sketch = [] := by
  cases sketch with
  | nil => simp
  | cons glyph sketch =>
    cases glyph with
    | char c => simp
    | hole index => simp [wording.word_ne_nil]

/-- A brace shows that there is a hole. -/
theorem brace_mem_fill (holed : holes sketch ≠ []) : '{' ∈ fill wording sketch := by
  induction sketch with
  | nil => exact absurd rfl holed
  | cons glyph sketch ih =>
    cases glyph with
    | char c => exact List.mem_cons_of_mem _ (ih holed)
    | hole index =>
      obtain ⟨rest, same, -⟩ := wording.proper index
      simp [same]

/-- Whatever has no brace has been written between the holes. -/
theorem exists_eq_ofText_append {text rest : List Char} (braceless : '{' ∉ text)
    (same : fill wording sketch = text ++ rest) :
    ∃ behind, sketch = ofText text ++ behind ∧ fill wording behind = rest := by
  induction text generalizing sketch with
  | nil => exact ⟨sketch, rfl, same⟩
  | cons c text ih =>
    simp only [List.mem_cons, not_or] at braceless
    cases sketch with
    | nil => simp at same
    | cons glyph sketch =>
      cases glyph with
      | char d =>
        simp only [fill_char, List.cons_append, List.cons.injEq] at same
        obtain ⟨rfl, same⟩ := same
        obtain ⟨behind, rfl, filled⟩ := ih braceless.2 same
        exact ⟨behind, rfl, filled⟩
      | hole index =>
        obtain ⟨behind, word, -⟩ := wording.proper index
        simp only [fill_hole, word, List.cons_append, List.cons.injEq] at same
        exact absurd same.1 braceless.1

/-! ## Placeholders in a sketch -/

/-- A placeholder that does not begin with a hole has none in it. -/
theorem exists_of_read?_fill {c : Char} {rest : List Char} {index : Nat}
    (read : read? (fill .placeholders (.char c :: sketch)) = some (index, rest)) :
    ∃ behind : Sketch, fill .placeholders behind = rest ∧ holes behind = holes sketch ∧
      ∀ wording, read? (fill wording (.char c :: sketch)) = some (index, fill wording behind) := by
  obtain ⟨digits, same, filled, allDigits, value, small⟩ := read?_eq_some_iff.mp read
  rw [opening_eq, fill_char, List.cons_append, List.cons_append, List.cons.injEq] at same
  obtain ⟨rfl, same⟩ := same
  cases sketch with
  | nil => cases same
  | cons glyph sketch =>
    cases glyph with
    | hole inner =>
      -- The second brace would be the first one of another placeholder.
      simp [Wording.word_placeholders, chars, opening_eq] at same
    | char d =>
      rw [fill_char, List.cons.injEq] at same
      obtain ⟨rfl, same⟩ := same
      have braceless : '{' ∉ opening.drop 2 ++ (digits ++ closing) := by
        simp only [opening_eq, closing, List.mem_append, not_or]
        refine ⟨by decide, fun member => ?_, by decide⟩
        exact absurd (allDigits _ member) (by decide)
      have front : fill .placeholders sketch = opening.drop 2 ++ (digits ++ closing) ++ rest := by
        simpa [opening_eq] using same
      obtain ⟨behind, rfl, rest⟩ := exists_eq_ofText_append braceless front
      refine ⟨behind, rest, by simp, fun wording => read?_eq_some_iff.mpr ⟨digits, ?_, filled,
        allDigits, value, small⟩⟩
      simp [opening_eq]

end Sketch

@[simp] theorem Placeholder.indices_cons (c : Char) (pieces : List Piece) :
    indices (Piece.cons c pieces) = indices pieces := by
  cases pieces with
  | nil => rfl
  | cons piece pieces => cases piece <;> rfl

namespace Sketch

variable {wording : Wording} {sketch : Sketch} {text : List Char}

/-- If a sketch with some words in it holds no placeholder, then with placeholders in it, it holds
just these. -/
theorem split_fill (small : ∀ index ∈ holes sketch, index < bound)
    (plain : Plain (fill wording sketch)) :
    indices (split (fill .placeholders sketch)) = holes sketch ∧
      ∀ other : Wording, rewrite other.word (fill .placeholders sketch) = fill other sketch := by
  induction sketch with
  | nil => exact ⟨by simp [indices], fun _ => by simp [rewrite]⟩
  | cons glyph sketch ih =>
    cases glyph with
    | hole index =>
      rw [holes_hole, List.forall_mem_cons] at small
      obtain ⟨same, written⟩ := ih small.2 plain.of_append
      have found := split_chars_append small.1 (fill .placeholders sketch)
      rw [fill_hole, Wording.word_placeholders]
      unfold rewrite at written ⊢
      rw [found]
      exact ⟨congrArg (index :: ·) same, fun other => congrArg (other.word index ++ ·) (written other)⟩
    | char c =>
      obtain ⟨same, written⟩ := ih small plain.2
      have none : read? (fill .placeholders (.char c :: sketch)) = none := by
        cases read : read? (fill .placeholders (.char c :: sketch)) with
        | none => rfl
        | some found =>
          obtain ⟨behind, -, -, again⟩ := exists_of_read?_fill read
          have contrary := plain.1
          rw [← fill_char, again] at contrary
          cases contrary
      have found := split_of_read?_none none
      unfold rewrite at written ⊢
      rw [fill_char, found, indices_cons]
      exact ⟨same, fun other => by rw [flatMap_cons_written, written other, fill_char]⟩

/-- A value that is a placeholder only with placeholders in it is one hole. -/
theorem eq_hole_of_index?_fill (small : ∀ index ∈ holes sketch, index < bound) {index : Nat}
    (found : index? (fill .placeholders sketch) = some index)
    (none : index? (fill wording sketch) = none) : sketch = [.hole index] := by
  rw [index?_eq_some_iff] at found
  cases sketch with
  | nil => cases found
  | cons glyph sketch =>
    cases glyph with
    | hole first =>
      rw [fill_hole, Wording.word_placeholders, read?_chars (small first (by simp))] at found
      obtain ⟨rfl, empty⟩ := Prod.mk.inj (Option.some.inj found)
      rw [fill_eq_nil_iff.mp empty]
    | char c =>
      obtain ⟨behind, empty, -, again⟩ := exists_of_read?_fill found
      rw [fill_eq_nil_iff.mp empty] at again
      rw [index?_eq_some_iff.mpr (again wording)] at none
      cases none

/-- Whatever stands around a placeholder, it is found. -/
theorem mem_indices_of_hole (small : ∀ index ∈ holes sketch, index < bound) {index : Nat}
    (hole : index ∈ holes sketch) : index ∈ indices (split (fill .placeholders sketch)) := by
  induction measure : (fill .placeholders sketch).length using Nat.strong_induction_on
    generalizing sketch with
  | _ size ih =>
    subst measure
    cases sketch with
    | nil => cases hole
    | cons glyph sketch =>
      cases glyph with
      | hole first =>
        rw [holes_hole, List.forall_mem_cons] at small
        rw [fill_hole, Wording.word_placeholders, split_chars_append small.1]
        obtain rfl | later := List.mem_cons.mp hole
        · exact List.mem_cons_self
        · have shorter : (fill .placeholders sketch).length <
              (fill .placeholders (.hole first :: sketch)).length := by
            simp [Wording.word_placeholders, chars, opening_eq]
            omega
          exact List.mem_cons_of_mem _ (ih _ shorter small.2 later rfl)
      | char c =>
        cases read : read? (fill .placeholders (.char c :: sketch)) with
        | none =>
          rw [fill_char, split_of_read?_none read, indices_cons]
          exact ih _ (by simp) small hole rfl
        | some found =>
          -- What is read there ends before the hole.
          obtain ⟨behind, rest, same, -⟩ := exists_of_read?_fill read
          rw [split_of_read? read]
          refine List.mem_cons_of_mem _ ?_
          rw [← rest]
          have shorter := read?_length read
          rw [← rest] at shorter
          rw [holes_char, ← same] at small hole
          exact ih _ shorter small hole rfl

theorem mem_indices_of_infix {index : Nat} (small : index < bound)
    (inside : chars index <:+: text) : index ∈ indices (split text) := by
  obtain ⟨front, back, rfl⟩ := inside
  let sketch : Sketch := Sketch.ofText front ++ (.hole index :: Sketch.ofText back)
  have filled : fill .placeholders sketch = front ++ chars index ++ back := by
    simp [sketch, Wording.word_placeholders]
  rw [← filled]
  exact mem_indices_of_hole (by simpa [sketch] using small) (by simp [sketch])

/-- Where the opening of a placeholder does not occur there is no hole. -/
theorem holes_eq_nil (absent : occursIn (fill .placeholders sketch) = false) :
    holes sketch = [] := by
  induction sketch with
  | nil => rfl
  | cons glyph sketch ih =>
    cases glyph with
    | char c => exact ih (occursIn_tail absent)
    | hole index =>
      have occurs : occursIn (fill .placeholders (.hole index :: sketch)) = true :=
        occursIn_iff.mpr ⟨[], _, by simp [Wording.word_placeholders, chars]; rfl⟩
      rw [occurs] at absent
      cases absent

/-! ## Long words -/

theorem replicate_append_inj {count count' : Nat} {rest rest' : List Char}
    (same : List.replicate count 'a' ++ '}' :: rest = List.replicate count' 'a' ++ '}' :: rest') :
    count = count' ∧ rest = rest' := by
  induction count generalizing count' with
  | zero =>
    cases count' with
    | zero => exact ⟨rfl, by simpa using same⟩
    | succ count' => simp [List.replicate_succ] at same
  | succ count ih =>
    cases count' with
    | zero => simp [List.replicate_succ] at same
    | succ count' =>
      simp only [List.replicate_succ, List.cons_append, List.cons.injEq, true_and] at same
      obtain ⟨rfl, rest⟩ := ih same
      exact ⟨rfl, rest⟩

/-- Letters in a row have been written between the holes. -/
theorem le_length_of_fill_eq {count : Nat} {rest : List Char}
    (same : fill wording sketch = List.replicate count 'a' ++ rest) : count ≤ sketch.length := by
  have braceless : '{' ∉ List.replicate count 'a' := fun member =>
    absurd (List.eq_of_mem_replicate member) (by decide)
  obtain ⟨behind, rfl, -⟩ := exists_eq_ofText_append braceless same
  simp [ofText]

/-- Words that are longer than two sketches tell them apart. -/
theorem fill_long_injective {size : Nat} {other : Sketch} (short : sketch.length ≤ size)
    (short' : other.length ≤ size) (same : fill (.long size) sketch = fill (.long size) other) :
    sketch = other := by
  induction sketch generalizing other with
  | nil => exact (fill_eq_nil_iff.mp same.symm).symm
  | cons glyph sketch ih =>
    cases other with
    | nil => exact fill_eq_nil_iff.mp same
    | cons glyph' other =>
      simp only [List.length_cons] at short short'
      cases glyph with
      | char c =>
        cases glyph' with
        | char c' =>
          rw [fill_char, fill_char, List.cons.injEq] at same
          rw [same.1, ih (by omega) (by omega) same.2]
        | hole index =>
          simp only [fill_char, fill_hole, Wording.long, List.cons_append, List.append_assoc,
            List.cons.injEq] at same
          -- A word in one of them only would need as many letters in the other, which is too
          -- short.
          have long := le_length_of_fill_eq same.2
          omega
      | hole index =>
        cases glyph' with
        | char c' =>
          simp only [fill_char, fill_hole, Wording.long, List.cons_append, List.append_assoc,
            List.cons.injEq] at same
          have long := le_length_of_fill_eq same.2.symm
          omega
        | hole index' =>
          simp only [fill_hole, Wording.long, List.cons_append, List.append_assoc, List.cons.injEq,
            true_and, List.nil_append] at same
          obtain ⟨counts, same⟩ := replicate_append_inj same
          have indices : index = index' := by omega
          rw [indices, ih (by omega) (by omega) same]

end Sketch

end LiveMarkup
