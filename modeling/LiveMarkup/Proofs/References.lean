import LiveMarkup.Markup.Reference

/-! # Where a character reference ends

A reference is made of letters, digits, a number sign and a semicolon.  Any other character ends it
and is read again, so a reference hides no quote, no blank and no less-than sign.  What it stands for
is never empty, so a reference at the front of a value is part of the value.

For this, `spelled_namesFrom` and `filled_namesFrom` look through the whole table of names. -/

namespace LiveMarkup

/-! ## Letters -/

theorem isUpper_iff {c : Char} : c.isUpper = true ↔ 'A'.val ≤ c.val ∧ c.val ≤ 'Z'.val :=
  decide_eq_true_iff

theorem isLower_iff {c : Char} : c.isLower = true ↔ 'a'.val ≤ c.val ∧ c.val ≤ 'z'.val :=
  (Bool.and_eq_true _ _).to_iff.trans (and_congr decide_eq_true_iff decide_eq_true_iff)

theorem isAlpha_iff {c : Char} : c.isAlpha = true ↔ c.isUpper = true ∨ c.isLower = true :=
  (Bool.or_eq_true _ _).to_iff

end LiveMarkup

namespace LiveMarkup.Markup.Reference

/-- The characters that a reference is made of. -/
def continues (c : Char) : Bool :=
  c.isAlphanum || c == ';' || c == '#'

/-! ## Names -/

/-- All names in a table are made of such characters. -/
inductive Spelled : List (String × List Nat) → Prop where
  | nil : Spelled []
  | cons {name : List Char} {codes : List Nat} {rest : List (String × List Nat)}
      (spelled : name.all continues = true) (after : Spelled rest) :
      Spelled ((String.ofList name, codes) :: rest)

theorem spelled_namesFrom (letter : Char) : Spelled (namesFrom letter) := by
  unfold namesFrom
  split
  -- No name begins with anything but a letter.
  case h_53 => exact .nil
  all_goals
    dsimp only [
      capitalA, capitalB, capitalC, capitalD, capitalE, capitalF, capitalG, capitalH, capitalI,
      capitalJ, capitalK, capitalL, capitalM, capitalN, capitalO, capitalP, capitalQ, capitalR,
      capitalS, capitalT, capitalU, capitalV, capitalW, capitalX, capitalY, capitalZ, smallA,
      smallB, smallC, smallD, smallE, smallF, smallG, smallH, smallI, smallJ, smallK, smallL,
      smallM, smallN, smallO, smallP, smallQ, smallR, smallS, smallT, smallU, smallV, smallW,
      smallX, smallY, smallZ]
    -- A literal is the text of its characters, so each name is looked at as a list.
    repeat refine .cons rfl ?_
    exact .nil

theorem Spelled.forall {names : List (String × List Nat)} (spelled : Spelled names) :
    ∀ entry ∈ names, entry.1.toList.all continues = true := by
  induction spelled with
  | nil => nofun
  | cons spelled _ ih =>
    exact List.forall_mem_cons.mpr ⟨by rwa [String.toList_ofList], ih⟩

/-! ## What a reference stands for -/

/-- Every name stands for some character. -/
theorem filled_namesFrom (letter : Char) :
    ∀ entry ∈ namesFrom letter, entry.2 ≠ [] := by
  have filled : (namesFrom letter).all (fun entry => !entry.2.isEmpty) = true := by
    unfold namesFrom
    split <;> decide +kernel
  intro entry listed none
  have some := List.all_eq_true.mp filled entry listed
  rw [none] at some
  cases some

theorem named?_ne_nil {name characters : List Char} (found : named? name = some characters) :
    characters ≠ [] := by
  cases name with
  | nil => cases found
  | cons letter name =>
    obtain ⟨entry, first, rfl⟩ := Option.map_eq_some_iff.mp found
    have filled := filled_namesFrom letter entry (List.mem_of_find?_eq_some first)
    simpa using filled

theorem longest?_ne_nil {text characters name rest : List Char} {size : Nat}
    (found : longest? text size = some (characters, name, rest)) : characters ≠ [] := by
  induction size with
  | zero => cases found
  | succ size ih =>
    unfold longest? at found
    split at found
    · next named =>
      cases found
      exact named?_ne_nil named
    · exact ih found

theorem resolve_ne_nil (inValue : Bool) (name : List Char) (next : Option Char) :
    resolve inValue name next ≠ [] := by
  unfold resolve
  split
  · exact List.cons_ne_nil _ _
  · next found =>
    split
    · exact List.cons_ne_nil _ _
    · exact List.append_ne_nil_of_left_ne_nil (longest?_ne_nil found) _

/-- A reference that is over stands for some text. -/
theorem ne_nil_of_step {inValue consumed : Bool} {reference : Reference} {c : Char}
    {text : List Char} (done : reference.step inValue c = .done text consumed) : text ≠ [] := by
  cases reference with
  | start | numeric =>
    simp only [step] at done
    split at done
    · cases done
    split at done
    · cases done
    · cases done
      exact List.cons_ne_nil _ _
  | named name =>
    simp only [step] at done
    split at done
    · split at done
      · cases done
        exact resolve_ne_nil _ _ _
      · cases done
    · cases done
      exact resolve_ne_nil _ _ _
  | hexStart letter | hexadecimal number =>
    simp only [step] at done
    split at done
    · cases done
    · cases done
      exact List.cons_ne_nil _ _
  | decimal number =>
    simp only [step] at done
    split at done
    · cases done
    · cases done
      exact List.cons_ne_nil _ _

/-! ## Characters that end a reference -/

variable {c : Char} (foreign : continues c = false)

include foreign

/-- No name of a character has any other character in it. -/
theorem startsName_of_foreign {text : List Char} (member : c ∈ text) : startsName text = false := by
  cases text with
  | nil => cases member
  | cons letter text =>
    rw [startsName, List.any_eq_false]
    intro entry listed front
    have spelled := (spelled_namesFrom letter).forall entry listed
    have within : c ∈ entry.1.toList := (List.isPrefixOf_iff_prefix.mp front).mem member
    rw [List.all_eq_true.mp spelled c within] at foreign
    cases foreign

/-! ## Steps -/

theorem hexDigit?_of_foreign : hexDigit? c = none := by
  simp only [continues, Char.isAlphanum, Bool.or_eq_false_iff] at foreign
  obtain ⟨⟨⟨other, digit⟩, -⟩, -⟩ := foreign
  rw [← Bool.not_eq_true, isAlpha_iff, not_or, isUpper_iff, isLower_iff] at other
  have small : ¬ ('a' ≤ c ∧ c ≤ 'f') := fun inside =>
    other.2 ⟨inside.1, Char.le_trans inside.2 (by decide : 'f' ≤ 'z')⟩
  have capital : ¬ ('A' ≤ c ∧ c ≤ 'F') := fun inside =>
    other.1 ⟨inside.1, Char.le_trans inside.2 (by decide : 'F' ≤ 'Z')⟩
  rw [hexDigit?, if_neg (by simp [digit]), if_neg small, if_neg capital]

/-- Any other character ends a reference and is no part of it. -/
theorem exists_step_foreign (inValue : Bool) (reference : Reference) :
    ∃ text, reference.step inValue c = .done text false := by
  have digit : c.isDigit = false := by
    simp only [continues, Char.isAlphanum, Bool.or_eq_false_iff] at foreign
    exact foreign.1.1.2
  have notX : c ≠ 'x' ∧ c ≠ 'X' ∧ c ≠ '#' ∧ c ≠ ';' := by
    refine ⟨?_, ?_, ?_, ?_⟩ <;>
    · rintro rfl
      cases foreign
  obtain ⟨smallX, capitalX, number, semicolon⟩ := notX
  cases reference with
  | start =>
    have ended : startsName [c] = false := startsName_of_foreign foreign List.mem_cons_self
    exact ⟨_, by simp [step, number, ended]; rfl⟩
  | named name =>
    have ended : startsName (c :: name).reverse = false :=
      startsName_of_foreign foreign (by simp)
    exact ⟨_, by rw [step, ended]; rfl⟩
  | numeric => exact ⟨_, by simp [step, smallX, capitalX, digit]; rfl⟩
  | hexStart letter => exact ⟨_, by simp [step, hexDigit?_of_foreign foreign]; rfl⟩
  | decimal number => exact ⟨_, by simp [step, digit, semicolon]; rfl⟩
  | hexadecimal number =>
    exact ⟨_, by simp [step, hexDigit?_of_foreign foreign, semicolon]; rfl⟩

omit foreign

/-- Either a character is left to what follows, or it is part of the reference. -/
theorem step_cases (inValue : Bool) (reference : Reference) (c : Char) :
    (∃ text, reference.step inValue c = .done text false) ∨ continues c = true ∧
      ((∃ further, reference.step inValue c = .more further) ∨
        ∃ text, text ≠ [] ∧ reference.step inValue c = .done text true) := by
  by_cases part : continues c = true
  · cases outcome : reference.step inValue c with
    | more further => exact .inr ⟨part, .inl ⟨further, rfl⟩⟩
    | done text consumed =>
      cases consumed with
      | true => exact .inr ⟨part, .inr ⟨text, ne_nil_of_step outcome, rfl⟩⟩
      | false => exact .inl ⟨text, rfl⟩
  · rw [Bool.not_eq_true] at part
    exact .inl (exists_step_foreign part inValue reference)

end LiveMarkup.Markup.Reference
