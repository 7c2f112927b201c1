import LiveMarkup.Literal.Placeholder
import Mathlib.Data.List.TakeWhile
import Mathlib.Data.List.Basic

/-! # Reading placeholders

What `read?` accepts, written out as a text: the opening, digits and the closing.  Everything else
follows from this form: the placeholder of an index is read back whatever follows it, `split` finds
it at once, and a run that `split` leaves over holds no placeholder of its own, also when the text
behind the run is taken away. -/

namespace LiveMarkup.Placeholder

/-! ## One placeholder -/

/-- What is read off is an opening, digits and a closing, in front of the rest. -/
theorem read?_eq_some_iff {text rest : List Char} {index : Nat} :
    read? text = some (index, rest) ↔
      ∃ digits, text = opening ++ (digits ++ (closing ++ rest)) ∧ digits ≠ [] ∧
        (∀ c ∈ digits, c.isDigit) ∧ Nat.ofDigitChars 10 digits 0 = index ∧ index < bound := by
  constructor
  · intro read
    unfold read? at read
    split at read
    · next opened =>
      obtain ⟨behind, rfl⟩ := List.isPrefixOf_iff_prefix.mp opened
      dsimp only at read
      rw [List.drop_left] at read
      split at read
      · next after same =>
        split at read
        · next valid =>
          obtain ⟨rfl, rfl⟩ := Prod.mk.inj (Option.some.inj read)
          refine ⟨behind.takeWhile Char.isDigit, ?_, valid.1, ?_, rfl, valid.2⟩
          · have whole : behind.takeWhile Char.isDigit ++ behind.dropWhile Char.isDigit = behind :=
              List.takeWhile_append_dropWhile
            rw [same] at whole
            conv_lhs => rw [← whole]
            simp [closing]
          · exact fun c member => List.mem_takeWhile_imp member
        · cases read
      · cases read
    · cases read
  · rintro ⟨digits, rfl, filled, allDigits, rfl, small⟩
    have taken : (digits ++ (closing ++ rest)).takeWhile Char.isDigit = digits := by
      rw [List.takeWhile_append_of_pos allDigits]
      simp [closing]
    have dropped : (digits ++ (closing ++ rest)).dropWhile Char.isDigit = closing ++ rest := by
      rw [List.dropWhile_append_of_pos allDigits]
      simp [closing]
    unfold read?
    rw [if_pos (List.isPrefixOf_iff_prefix.mpr ⟨_, rfl⟩)]
    dsimp only
    rw [List.drop_left, taken, dropped]
    simp [closing, filled, small]

theorem lt_bound_of_read? {text rest : List Char} {index : Nat}
    (read : read? text = some (index, rest)) : index < bound := by
  obtain ⟨-, -, -, -, -, small⟩ := read?_eq_some_iff.mp read
  exact small

/-- What follows a placeholder has no part in reading it. -/
theorem read?_append {text rest : List Char} {index : Nat} (read : read? text = some (index, rest))
    (behind : List Char) : read? (text ++ behind) = some (index, rest ++ behind) := by
  obtain ⟨digits, rfl, filled, allDigits, value, small⟩ := read?_eq_some_iff.mp read
  exact read?_eq_some_iff.mpr ⟨digits, by simp, filled, allDigits, value, small⟩

theorem isDigit_of_mem_digits {index : Nat} {c : Char} (member : c ∈ Nat.toDigits 10 index) :
    c.isDigit :=
  Nat.isDigit_of_mem_toDigits (by decide) (by decide) member

/-- The placeholder of an index is read back, whatever follows it. -/
theorem read?_chars {index : Nat} (small : index < bound) (rest : List Char) :
    read? (chars index ++ rest) = some (index, rest) :=
  read?_eq_some_iff.mpr ⟨Nat.toDigits 10 index, by simp [chars], Nat.toDigits_ne_nil,
    fun _ member => isDigit_of_mem_digits member, Nat.ofDigitChars_ten_toDigits, small⟩

theorem index?_eq_some_iff {text : List Char} {index : Nat} :
    index? text = some index ↔ read? text = some (index, []) := by
  unfold index?
  split
  · next found read => simp [read]
  · next other =>
    constructor
    · intro none
      cases none
    · intro read
      exact absurd read (other index)

theorem index?_chars {index : Nat} (small : index < bound) : index? (chars index) = some index := by
  rw [index?_eq_some_iff]
  simpa using read?_chars small []

theorem lt_bound_of_index? {text : List Char} {index : Nat} (found : index? text = some index) :
    index < bound :=
  lt_bound_of_read? (index?_eq_some_iff.mp found)

/-! ## Occurrences of the opening -/

theorem occursIn_mono {text whole : List Char} (occurs : occursIn text = true)
    (inside : text <:+: whole) : occursIn whole = true := by
  obtain ⟨before, after, rfl⟩ := occursIn_iff.mp occurs
  obtain ⟨front, behind, rfl⟩ := inside
  exact occursIn_iff.mpr ⟨front ++ before, after ++ behind, by simp⟩

/-- A placeholder begins with the opening. -/
theorem occursIn_of_infix {index : Nat} {text : List Char} (inside : chars index <:+: text) :
    occursIn text = true := by
  refine occursIn_mono (occursIn_iff.mpr ⟨[], Nat.toDigits 10 index ++ closing, ?_⟩) inside
  simp [chars]

/-- A text without the opening has no placeholder at its front. -/
theorem read?_eq_none_of_not_occursIn {text : List Char} (absent : occursIn text = false) :
    read? text = none := by
  cases read : read? text with
  | none => rfl
  | some found =>
    obtain ⟨digits, same, -⟩ := read?_eq_some_iff.mp read
    rw [occursIn_iff.mpr ⟨[], _, same⟩] at absent
    cases absent

theorem occursIn_tail {c : Char} {cs : List Char} (absent : occursIn (c :: cs) = false) :
    occursIn cs = false := by
  simp only [occursIn, Bool.or_eq_false_iff] at absent
  exact absent.2

/-! ## Splitting -/

@[simp] theorem split_nil : split [] = [] := by
  rw [split]

theorem split_of_read? {text rest : List Char} {index : Nat}
    (read : read? text = some (index, rest)) : split text = .placeholder index :: split rest := by
  cases text with
  | nil =>
    obtain ⟨digits, same, -⟩ := read?_eq_some_iff.mp read
    rw [opening_eq] at same
    simp at same
  | cons c cs =>
    rw [split]
    split
    · next found behind again =>
      rw [read] at again
      obtain ⟨rfl, rfl⟩ := Prod.mk.inj (Option.some.inj again)
      rfl
    · next none =>
      rw [read] at none
      cases none

theorem split_of_read?_none {c : Char} {cs : List Char} (none : read? (c :: cs) = none) :
    split (c :: cs) = Piece.cons c (split cs) := by
  rw [split]
  split
  · next found behind read =>
    rw [none] at read
    cases read
  · rfl

theorem split_chars_append {index : Nat} (small : index < bound) (rest : List Char) :
    split (chars index ++ rest) = .placeholder index :: split rest :=
  split_of_read? (read?_chars small rest)

/-- A text with no placeholder anywhere in it, whatever it starts to spell. -/
def Plain : List Char → Prop
  | [] => True
  | c :: cs => read? (c :: cs) = none ∧ Plain cs

theorem Plain.of_not_occursIn {text : List Char} (absent : occursIn text = false) : Plain text := by
  induction text with
  | nil => trivial
  | cons c cs ih => exact ⟨read?_eq_none_of_not_occursIn absent, ih (occursIn_tail absent)⟩

theorem Plain.of_append {first second : List Char} (plain : Plain (first ++ second)) :
    Plain second := by
  induction first with
  | nil => exact plain
  | cons c first ih => exact ih plain.2

theorem Plain.split {text : List Char} (plain : Plain text) (filled : text ≠ []) :
    split text = [.run text] := by
  induction text with
  | nil => exact absurd rfl filled
  | cons c cs ih =>
    rw [split_of_read?_none plain.1]
    cases cs with
    | nil => simp [Piece.cons]
    | cons d ds => rw [ih plain.2 (by simp)]; rfl

/-- A run at the front of the pieces is a front part of the text. -/
theorem split_head_run {text run : List Char} {pieces : List Piece}
    (same : split text = .run run :: pieces) : ∃ behind, text = run ++ behind := by
  induction text generalizing run pieces with
  | nil => simp at same
  | cons c cs ih =>
    cases read : read? (c :: cs) with
    | some found => rw [split_of_read? read] at same; cases same
    | none =>
      rw [split_of_read?_none read] at same
      cases later : Placeholder.split cs with
      | nil =>
        rw [later] at same
        obtain ⟨head, -⟩ := List.cons.inj same
        cases head
        exact ⟨cs, rfl⟩
      | cons first pieces =>
        rw [later] at same
        cases first with
        | run front =>
          obtain ⟨head, -⟩ := List.cons.inj same
          cases head
          obtain ⟨behind, rfl⟩ := ih later
          exact ⟨behind, rfl⟩
        | placeholder index =>
          obtain ⟨head, -⟩ := List.cons.inj same
          cases head
          exact ⟨cs, rfl⟩

/-- A run is not empty, and there is no placeholder in it: one would have been found when the run
was still followed by the rest of the text. -/
theorem plain_of_run_mem_split {text run : List Char} (member : Piece.run run ∈ split text) :
    run ≠ [] ∧ Plain run := by
  induction measure : text.length using Nat.strong_induction_on generalizing text run with
  | _ size ih =>
    subst measure
    cases text with
    | nil => simp at member
    | cons c cs =>
      cases read : read? (c :: cs) with
      | some found =>
        rw [split_of_read? read] at member
        obtain same | member := List.mem_cons.mp member
        · cases same
        · exact ih _ (read?_length read) member rfl
      | none =>
        -- A placeholder in the character alone would have been one with the text behind it, too.
        have alone : Plain [c] := by
          refine ⟨?_, trivial⟩
          cases single : read? [c] with
          | none => rfl
          | some found =>
            rw [show c :: cs = [c] ++ cs from rfl, read?_append single cs] at read
            cases read
        rw [split_of_read?_none read] at member
        cases later : Placeholder.split cs with
        | nil =>
          rw [later] at member
          obtain same := List.mem_singleton.mp member
          cases same
          exact ⟨by simp, alone⟩
        | cons first pieces =>
          rw [later] at member
          cases first with
          | run front =>
            obtain same | member := List.mem_cons.mp member
            · cases same
              refine ⟨by simp, ?_, (@ih cs.length (by simp) cs _ (by simp [later]) rfl).2⟩
              -- The character goes in front of the first run, and no placeholder begins with it
              -- there either.
              obtain ⟨behind, rfl⟩ := split_head_run later
              cases longer : read? (c :: front) with
              | none => rfl
              | some found =>
                rw [← List.cons_append, read?_append longer behind] at read
                cases read
            · exact @ih cs.length (by simp) cs _ (by simp [later, member]) rfl
          | placeholder index =>
            obtain same | member := List.mem_cons.mp member
            · cases same
              exact ⟨by simp, alone⟩
            · exact @ih cs.length (by simp) cs _ (by simpa [later] using member) rfl

theorem lt_bound_of_placeholder_mem_split {text : List Char} {index : Nat}
    (member : Piece.placeholder index ∈ split text) : index < bound := by
  induction measure : text.length using Nat.strong_induction_on generalizing text with
  | _ size ih =>
    subst measure
    cases text with
    | nil => simp at member
    | cons c cs =>
      cases read : read? (c :: cs) with
      | some found =>
        rw [split_of_read? read] at member
        obtain same | member := List.mem_cons.mp member
        · cases same
          exact lt_bound_of_read? read
        · exact ih _ (read?_length read) member rfl
      | none =>
        rw [split_of_read?_none read] at member
        refine @ih cs.length (by simp) cs ?_ rfl
        cases later : Placeholder.split cs with
        | nil => simp [later, Piece.cons] at member
        | cons first pieces => cases first <;> simp_all [Piece.cons]

/-! ## Writing words for placeholders -/

/-- What is written for a piece: a run as it is, and for a placeholder the word of its index. -/
def Piece.written (word : Nat → List Char) : Piece → List Char
  | .run text => text
  | .placeholder index => word index

/-- The text with words in place of its placeholders. -/
def rewrite (word : Nat → List Char) (text : List Char) : List Char :=
  (split text).flatMap (Piece.written word)

@[simp] theorem flatMap_cons_written (word : Nat → List Char) (c : Char)
    (pieces : List Piece) :
    (Piece.cons c pieces).flatMap (Piece.written word) =
      c :: pieces.flatMap (Piece.written word) := by
  cases pieces with
  | nil => rfl
  | cons piece pieces => cases piece <;> rfl

theorem Plain.rewrite {text : List Char} (plain : Plain text) (word : Nat → List Char) :
    rewrite word text = text := by
  cases text with
  | nil => simp [Placeholder.rewrite]
  | cons c cs => simp [Placeholder.rewrite, plain.split, Piece.written]

end LiveMarkup.Placeholder
