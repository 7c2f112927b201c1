import LiveMarkup.Proofs.Lockstep.States
import LiveMarkup.Proofs.References
import LiveMarkup.Proofs.Words

/-! # What can be spelled

Names, values and comments that are read as they are written: a name has no character that ends it, a
comment no part that ends it, and nothing holds the character zero, which is replaced where it is read.
The lexer keeps no other names, no reference stands for the character zero, and no comment is read that
could not be read once more.

While a comment is read, its text so far is one that leads from the start of a comment to the very
state of the lexer (`Commenting`).  So the text at its end can be read again. -/

namespace LiveMarkup

open Markup

/-! ## References -/

namespace Markup.Reference

/-- No name stands for the character zero. -/
theorem shown_namesFrom (letter : Char) :
    ∀ entry ∈ namesFrom letter, ∀ code ∈ entry.2, Char.ofNat code ≠ '\x00' := by
  have shown : (namesFrom letter).all (fun entry =>
      entry.2.all fun code => Char.ofNat code != '\x00') = true := by
    unfold namesFrom
    split <;> decide +kernel
  intro entry listed code within
  simpa using List.all_eq_true.mp (List.all_eq_true.mp shown entry listed) code within

theorem zero_notMem_named? {name characters : List Char} (found : named? name = some characters) :
    '\x00' ∉ characters := by
  cases name with
  | nil => cases found
  | cons letter name =>
    obtain ⟨entry, first, rfl⟩ := Option.map_eq_some_iff.mp found
    rw [List.mem_map]
    rintro ⟨code, within, zero⟩
    exact shown_namesFrom letter entry (List.mem_of_find?_eq_some first) code within zero

theorem zero_notMem_longest? {text characters name rest : List Char} {size : Nat}
    (shown : '\x00' ∉ text) (found : longest? text size = some (characters, name, rest)) :
    '\x00' ∉ characters ++ rest := by
  induction size with
  | zero => cases found
  | succ size ih =>
    unfold longest? at found
    split at found
    · next named =>
      cases found
      rw [List.mem_append, not_or]
      exact ⟨zero_notMem_named? named, fun member => shown (List.mem_of_mem_drop member)⟩
    · exact ih found

theorem zero_notMem_resolve {name : List Char} (shown : '\x00' ∉ name) (inValue : Bool)
    (next : Option Char) : '\x00' ∉ resolve inValue name next := by
  have plain : '\x00' ∉ '&' :: name := by simp [shown]
  unfold resolve
  split
  · exact plain
  · next found =>
    split
    · exact plain
    · exact zero_notMem_longest? shown found

theorem numbered_ne_zero (number : Nat) : numbered number ≠ '\x00' := by
  unfold numbered
  split
  · decide
  next valid =>
  rw [not_or, not_not] at valid
  unfold meantByControl
  split
  case h_28 =>
    intro zero
    rw [Char.ofNat, dif_pos valid.2] at zero
    have same : number = 0 := congrArg Char.toNat zero
    exact valid.1 same
  all_goals decide

/-- What is read of a reference has no character zero. -/
def Shown : Reference → Prop
  | named name => '\x00' ∉ name
  | hexStart letter => letter ≠ '\x00'
  | _ => True

/-- What a character does to a reference has none either. -/
def Outcome.Shown : Outcome → Prop
  | more reference => reference.Shown
  | done text _ => '\x00' ∉ text

theorem Shown.step {reference : Reference} (shown : reference.Shown) (inValue : Bool) (c : Char) :
    (reference.step inValue c).Shown := by
  have notZero {text : List Char} (starts : startsName text = true) : '\x00' ∉ text := fun member => by
    rw [startsName_of_foreign rfl member] at starts
    cases starts
  -- What is given up on are the characters read so far, and what is resolved comes from the table
  -- or from a number.
  cases reference with
  | start =>
    unfold Reference.step
    dsimp only
    split
    · trivial
    split
    · next starts => exact notZero starts
    · exact (by decide : '\x00' ∉ ['&'])
  | named name =>
    unfold Reference.step
    dsimp only
    split
    · next starts =>
      have longer := notZero starts
      split
      · exact zero_notMem_resolve longer _ _
      · exact fun member => longer (List.mem_reverse.mpr member)
    · exact zero_notMem_resolve (fun member => shown (List.mem_reverse.mp member)) _ _
  | numeric =>
    unfold Reference.step
    dsimp only
    split
    · next letter =>
      obtain rfl | rfl := letter
      · exact (by decide : 'x' ≠ '\x00')
      · exact (by decide : 'X' ≠ '\x00')
    split
    · trivial
    · exact (by decide : '\x00' ∉ ['&', '#'])
  | hexStart letter =>
    have other : letter ≠ '\x00' := shown
    unfold Reference.step
    dsimp only
    split
    · trivial
    · simpa [Outcome.Shown] using other.symm
  | decimal number | hexadecimal number =>
    unfold Reference.step
    dsimp only
    split
    · trivial
    · simpa [Outcome.Shown] using (numbered_ne_zero number).symm

theorem Shown.finish {reference : Reference} (shown : reference.Shown) (inValue : Bool) :
    '\x00' ∉ reference.finish inValue := by
  cases reference with
  | start => exact (by decide : '\x00' ∉ ['&'])
  | numeric => exact (by decide : '\x00' ∉ ['&', '#'])
  | named name =>
    exact zero_notMem_resolve (fun member => shown (List.mem_reverse.mp member)) _ _
  | hexStart letter =>
    have other : letter ≠ '\x00' := shown
    simpa [Reference.finish] using other.symm
  | decimal number | hexadecimal number =>
    simpa [Reference.finish] using (numbered_ne_zero number).symm

end Markup.Reference

/-! ## Names -/

/-- A character that a name is kept with: a small one if it is a letter, and none that ends a name or
is replaced. -/
def isNamePart (c : Char) : Bool :=
  !LexerState.endsWord c && c != '\x00' && c.toLower == c

theorem Markup.LexerState.visible_ne_zero (c : Char) : LexerState.visible c ≠ '\x00' := by
  unfold LexerState.visible
  split
  · decide
  · assumption

theorem isNamePart_nameChar {c : Char} (goesOn : LexerState.endsWord c = false) :
    isNamePart (LexerState.nameChar c) = true := by
  unfold LexerState.nameChar LexerState.visible
  split
  · decide
  next other =>
  have goesOn' : LexerState.endsWord c.toLower = false := by
    by_contra ends
    rw [Bool.not_eq_false] at ends
    -- Only letters have another spelling, and none of them ends a word.
    have same : c = c.toLower := eq_of_toLower_eq rfl (by
      simp only [LexerState.endsWord, isBlank, Bool.or_eq_true, beq_iff_eq] at ends
      obtain (((((blank | blank) | blank) | blank) | blank) | slash) | greater := ends <;>
        simp [*])
    rw [← same, goesOn] at ends
    cases ends
  simp [isNamePart, goesOn', other]

section

variable {c : Char} (part : isNamePart c = true)

include part

theorem endsWord_of_isNamePart : LexerState.endsWord c = false := by
  simp only [isNamePart, Bool.and_eq_true, Bool.not_eq_true'] at part
  exact part.1.1

theorem toLower_of_isNamePart : c.toLower = c := by
  simp only [isNamePart, Bool.and_eq_true, beq_iff_eq] at part
  exact part.2

theorem nameChar_of_isNamePart : LexerState.nameChar c = c := by
  have notZero : c ≠ '\x00' := by
    simp only [isNamePart, Bool.and_eq_true, bne_iff_ne] at part
    exact part.1.2
  rw [LexerState.nameChar, toLower_of_isNamePart part, LexerState.visible, if_neg notZero]

end

theorem isAlpha_toLower {c : Char} (letter : c.isAlpha = true) : c.toLower.isAlpha = true := by
  by_contra other
  rw [Bool.not_eq_true] at other
  rw [← eq_of_toLower_eq rfl other, letter] at other
  cases other

/-- A tag name: a letter, and what a name goes on with. -/
structure IsTagName (name : List Char) : Prop where
  begins : ∃ first rest, name = first :: rest ∧ first.isAlpha = true
  goesOn : ∀ c ∈ name, isNamePart c = true

/-- The name of an attribute.  Only at its front can there be an equals sign. -/
structure IsKey (name : List Char) : Prop where
  filled : name ≠ []
  goesOn : ∀ c ∈ name, isNamePart c = true
  plain : '=' ∉ name.tail

theorem forall_mem_concat {name : List Char} {c : Char}
    (goesOn : ∀ c ∈ name, isNamePart c = true) (more : isNamePart c = true) :
    ∀ d ∈ name ++ [c], isNamePart d = true := by
  intro d member
  obtain old | new := List.mem_append.mp member
  · exact goesOn d old
  · rwa [List.mem_singleton.mp new]

theorem IsTagName.concat {name : List Char} {c : Char} (named : IsTagName name)
    (more : isNamePart c = true) : IsTagName (name ++ [c]) := by
  obtain ⟨first, rest, rfl, alpha⟩ := named.begins
  exact ⟨⟨first, rest ++ [c], rfl, alpha⟩, forall_mem_concat named.goesOn more⟩

theorem IsKey.concat {name : List Char} {c : Char} (key : IsKey name) (more : isNamePart c = true)
    (other : c ≠ '=') : IsKey (name ++ [c]) where
  filled := by simp
  goesOn := forall_mem_concat key.goesOn more
  plain := by
    rw [List.tail_append_of_ne_nil key.filled, List.mem_append, not_or, List.mem_singleton]
    exact ⟨key.plain, other.symm⟩

/-- An attribute that is read as it is written. -/
def Attributable (pair : String × String) : Prop :=
  IsKey pair.1.toList ∧ '\x00' ∉ pair.2.toList

/-! ## Comments -/

/-- The characters that a comment may end with, and which are part of it if it goes on. -/
def Markup.CommentTail.pending : CommentTail → List Char
  | .start | .none => []
  | .startDash | .dash => ['-']
  | .dashes => ['-', '-']
  | .bang => ['-', '-', '!']

/-- Inside a comment a character becomes part of it, or ends it. -/
theorem Markup.LexerState.step_comment_cases (text : List Char) (tail : CommentTail) (c : Char) :
    (∃ text' tail', (comment text tail).step c = silently (.comment text' tail') ∧
        text'.reverse ++ tail'.pending = text.reverse ++ tail.pending ++ [visible c]) ∨
      c = '>' ∧ (comment text tail).step c = commenting text := by
  have gathered (before : List Char) (behind : before = tail.pending.reverse ++ text) :
      ∃ text' tail', stepComment before c = silently (.comment text' tail') ∧
        text'.reverse ++ tail'.pending = text.reverse ++ tail.pending ++ [visible c] := by
    subst behind
    unfold stepComment
    split
    · next dash =>
      subst dash
      exact ⟨_, _, rfl, by simp [CommentTail.pending, visible]⟩
    · exact ⟨_, _, rfl, by simp [CommentTail.pending]⟩
  have dashed (more : List Char) (next : CommentTail) (isDash : c = '-')
      (same : (more ++ text).reverse ++ next.pending = text.reverse ++ tail.pending ++ ['-']) :
      ∃ text' tail', silently (.comment (more ++ text) next) = silently (.comment text' tail') ∧
        text'.reverse ++ tail'.pending = text.reverse ++ tail.pending ++ [visible c] := by
    subst isDash
    exact ⟨_, _, rfl, same⟩
  -- Besides an end, each state has a dash that may be part of one, and other characters.
  cases tail with
  | start =>
    unfold step stepCommentTail
    dsimp only
    split
    · next dash => exact .inl (dashed [] .startDash dash (by simp [CommentTail.pending]))
    split
    · next greater => exact .inr ⟨greater, rfl⟩
    · exact .inl (gathered text rfl)
  | startDash =>
    unfold step stepCommentTail
    dsimp only
    split
    · next dash => exact .inl (dashed [] .dashes dash (by simp [CommentTail.pending]))
    split
    · next greater => exact .inr ⟨greater, rfl⟩
    · exact .inl (gathered _ rfl)
  | none => exact .inl (gathered text rfl)
  | dash =>
    unfold step stepCommentTail
    dsimp only
    split
    · next dash => exact .inl (dashed [] .dashes dash (by simp [CommentTail.pending]))
    · exact .inl (gathered _ rfl)
  | dashes =>
    unfold step stepCommentTail
    dsimp only
    split
    · next greater => exact .inr ⟨greater, rfl⟩
    split
    · next bang =>
      subst bang
      exact .inl ⟨_, _, rfl, by simp [CommentTail.pending, visible]⟩
    split
    · next dash => exact .inl (dashed ['-'] .dashes dash (by simp [CommentTail.pending]))
    · exact .inl (gathered _ rfl)
  | bang =>
    unfold step stepCommentTail
    dsimp only
    split
    · next dash => exact .inl (dashed ['!', '-', '-'] .dash dash (by simp [CommentTail.pending]))
    split
    · next greater => exact .inr ⟨greater, rfl⟩
    · exact .inl (gathered _ rfl)

/-- What is replaced counts as what it is replaced by. -/
theorem Markup.LexerState.step_comment_visible (text : List Char) (tail : CommentTail) (c : Char) :
    (comment text tail).step (visible c) = (comment text tail).step c := by
  unfold visible
  split
  · next zero =>
    subst zero
    cases tail <;> rfl
  · rfl

/-- The data of a comment that is read as it is written: no part of it ends the comment. -/
def Commentable (data : List Char) : Prop :=
  (∀ c ∈ data, c ≠ '\x00' ∧ c ≠ '\r') ∧ ((LexerState.comment [] .start).advance data).2 = []

/-- Data without a part that ends a comment are gathered. -/
theorem Markup.LexerState.advance_comment_of_silent {text data : List Char} {tail : CommentTail}
    (shown : ∀ c ∈ data, c ≠ '\x00') (silent : ((comment text tail).advance data).2 = []) :
    ∃ text' tail', (comment text tail).advance data = silently (.comment text' tail') ∧
      text'.reverse ++ tail'.pending = text.reverse ++ tail.pending ++ data := by
  induction data generalizing text tail with
  | nil => exact ⟨text, tail, rfl, by simp⟩
  | cons c data ih =>
    rw [List.forall_mem_cons] at shown
    obtain ⟨text', tail', here, same⟩ | ⟨-, ended⟩ := step_comment_cases text tail c
    · rw [advance_cons, here, silently, List.nil_append] at silent
      obtain ⟨last, rest, there, whole⟩ := ih shown.2 silent
      refine ⟨last, rest, by rw [advance_cons, here, silently, there]; rfl, ?_⟩
      rw [whole, same, visible, if_neg shown.1]
      simp
    · rw [advance_cons, ended] at silent
      cases silent

/-- Nothing ends a comment but a greater-than sign. -/
theorem Markup.LexerState.silent_advance_comment {text data : List Char} {tail : CommentTail}
    (inside : '>' ∉ data) : ((comment text tail).advance data).2 = [] := by
  induction data generalizing text tail with
  | nil => rfl
  | cons c data ih =>
    rw [List.mem_cons, not_or] at inside
    obtain ⟨text', tail', here, -⟩ | ⟨greater, -⟩ := step_comment_cases text tail c
    · rw [advance_cons, here]
      exact ih inside.2
    · exact absurd greater.symm inside.1

/-- The lexer is where the text of the comment so far leads to from its start. -/
structure Commenting (text : List Char) (tail : CommentTail) : Prop where
  read : (LexerState.comment [] .start).advance (text.reverse ++ tail.pending) =
    LexerState.silently (.comment text tail)
  shown : ∀ c ∈ text, c ≠ '\x00' ∧ c ≠ '\r'

theorem Commenting.commentable {text : List Char} {tail : CommentTail}
    (commenting : Commenting text tail) : Commentable text.reverse := by
  refine ⟨fun c member => commenting.shown c (List.mem_reverse.mp member), ?_⟩
  have tokens := congrArg Prod.snd commenting.read
  rw [LexerState.advance_append] at tokens
  exact (List.append_eq_nil_iff.mp tokens).1

theorem Commenting.step {text text' : List Char} {tail tail' : CommentTail} {c : Char}
    (commenting : Commenting text tail) (smooth : c ≠ '\r')
    (here : (LexerState.comment text tail).step c = LexerState.silently (.comment text' tail'))
    (same : text'.reverse ++ tail'.pending = text.reverse ++ tail.pending ++ [LexerState.visible c]) :
    Commenting text' tail' where
  read := by
    rw [same, LexerState.advance_append, commenting.read, LexerState.silently,
      LexerState.advance_cons, LexerState.step_comment_visible, here]
    rfl
  shown := by
    have pending : ∀ d ∈ tail.pending, d ≠ '\x00' ∧ d ≠ '\r' := by
      cases tail <;> simp [CommentTail.pending]
    have new : LexerState.visible c ≠ '\r' := by
      unfold LexerState.visible
      split
      · decide
      · exact smooth
    intro d member
    have whole : d ∈ text.reverse ++ tail.pending ++ [LexerState.visible c] := by
      rw [← same]
      exact List.mem_append_left _ (List.mem_reverse.mpr member)
    simp only [List.mem_append, List.mem_reverse, List.mem_singleton] at whole
    obtain (old | old) | rfl := whole
    · exact commenting.shown d old
    · exact pending d old
    · exact ⟨LexerState.visible_ne_zero c, new⟩

/-- The text of a comment that ends at the next greater-than sign. -/
def Uninterrupted (text : List Char) : Prop :=
  ∀ c ∈ text, (c ≠ '\x00' ∧ c ≠ '\r') ∧ c ≠ '>'

theorem Uninterrupted.commentable {text : List Char} (whole : Uninterrupted text) :
    Commentable text.reverse := by
  refine ⟨fun c member => (whole c (List.mem_reverse.mp member)).1, ?_⟩
  exact LexerState.silent_advance_comment fun member =>
    (whole '>' (List.mem_reverse.mp member)).2 rfl

end LiveMarkup
