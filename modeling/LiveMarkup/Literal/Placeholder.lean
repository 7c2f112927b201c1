/-! # Placeholders

A placeholder is the text that stands for a dynamic value while the segments of a literal are read
as one piece of markup.  It carries the index of its value, so that a value which the markup moves,
drops or repeats is noticed.

`join` writes the placeholders between segments and `split` finds them in a text again; `index?`
recognises a text that is one placeholder and nothing else. -/

namespace LiveMarkup.Placeholder

-- The power of natural numbers is that of the core library, whatever else is imported.
attribute [default_instance 20000] instPowNat

/-- The start of every placeholder.  It is reserved: a segment must not contain it. -/
def opening : List Char :=
  "\x7b\x7bstencil-part-".toList

theorem opening_eq :
    opening = ['{', '{', 's', 't', 'e', 'n', 'c', 'i', 'l', '-', 'p', 'a', 'r', 't', '-'] :=
  rfl

/-- The end of every placeholder, after the decimal index. -/
def closing : List Char :=
  ['}', '}']

/-- Indices are below this bound; a larger number makes no placeholder. -/
def bound : Nat :=
  2 ^ 64

/-- The placeholder of the value with the given index. -/
def chars (index : Nat) : List Char :=
  opening ++ Nat.toDigits 10 index ++ closing

def text (index : Nat) : String :=
  String.ofList (chars index)

/-! ## Joining segments -/

/-- The given segments, each behind a placeholder, the first of which has the given index. -/
def joinFrom (index : Nat) : List (List Char) → List Char
  | [] => []
  | segment :: rest => chars index ++ segment ++ joinFrom (index + 1) rest

/-- The segments with placeholder `i` between segments `i` and `i + 1`. -/
def joinChars : List (List Char) → List Char
  | [] => []
  | first :: rest => first ++ joinFrom 0 rest

def join (segments : List String) : String :=
  String.ofList (joinChars (segments.map String.toList))

/-! ## Finding placeholders -/

/-- Whether a text contains the start of a placeholder. -/
def occursIn : List Char → Bool
  | [] => false
  | c :: cs => opening.isPrefixOf (c :: cs) || occursIn cs

theorem occursIn_iff {text : List Char} :
    occursIn text = true ↔ ∃ before after, text = before ++ (opening ++ after) := by
  induction text with
  | nil =>
    constructor
    · intro occurs
      cases occurs
    · rintro ⟨before, after, same⟩
      rw [opening_eq] at same
      simp at same
  | cons c cs ih =>
    simp only [occursIn, Bool.or_eq_true, List.isPrefixOf_iff_prefix, ih]
    constructor
    · rintro (⟨after, same⟩ | ⟨before, after, rfl⟩)
      · exact ⟨[], after, same.symm⟩
      · exact ⟨c :: before, after, rfl⟩
    · rintro ⟨before, after, same⟩
      cases before with
      | nil => exact .inl ⟨after, same.symm⟩
      | cons first before =>
        obtain ⟨-, rfl⟩ := List.cons.inj same
        exact .inr ⟨before, after, rfl⟩

/-- Reads one placeholder off the front of a text: its index and what follows it.  Leading zeros are
allowed. -/
def read? (text : List Char) : Option (Nat × List Char) :=
  if opening.isPrefixOf text then
    let rest := text.drop opening.length
    let digits := rest.takeWhile Char.isDigit
    let index := Nat.ofDigitChars 10 digits 0
    match rest.dropWhile Char.isDigit with
    | '}' :: '}' :: after => if digits ≠ [] ∧ index < bound then some (index, after) else none
    | _ => none
  else none

/-- A placeholder takes up some of the text. -/
theorem read?_length {text rest : List Char} {index : Nat} (h : read? text = some (index, rest)) :
    rest.length < text.length := by
  unfold read? at h
  split at h
  · dsimp only at h
    split at h
    · rename_i after same
      split at h
      · obtain ⟨-, rfl⟩ := Prod.mk.inj (Option.some.inj h)
        have shorter : ((text.drop opening.length).dropWhile Char.isDigit).length ≤
            (text.drop opening.length).length := (List.dropWhile_sublist _).length_le
        rw [same] at shorter
        simp only [List.length_cons, List.length_drop] at shorter
        omega
      · cases h
    · cases h
  · cases h

/-- The index of a text that is exactly one placeholder. -/
def index? (text : List Char) : Option Nat :=
  match read? text with
  | some (index, []) => some index
  | _ => none

/-- A stretch of a text: a placeholder, or a run of anything else. -/
inductive Piece where
  | run (text : List Char)
  | placeholder (index : Nat)
  deriving DecidableEq, Repr

/-- Puts a character in front of the pieces of the text behind it. -/
def Piece.cons (c : Char) : List Piece → List Piece
  | .run text :: rest => .run (c :: text) :: rest
  | pieces => .run [c] :: pieces

/-- The pieces of a text in order.  Runs are not empty and no two of them meet; what looks like a
placeholder but is none belongs to a run.  The text is gone through character by character, which
comes to the same as a search for the next opening and the closing behind it
(`split_eq_splitBySearch`). -/
def split (text : List Char) : List Piece :=
  match text with
  | [] => []
  | c :: cs =>
    match _read : read? (c :: cs) with
    | some (index, rest) => .placeholder index :: split rest
    | none => Piece.cons c (split cs)
  termination_by text.length
  decreasing_by
    · exact read?_length _read
    · simp

end LiveMarkup.Placeholder
