import LiveMarkup.Proofs.References
import LiveMarkup.Proofs.Bytes.ByteReader

/-! # Characters at byte offsets

A text is made of characters and read by its bytes.  `Remains` says what is left of a text at a byte
offset, as characters; it goes on from one character to the next (`Remains.next`).  `Spells` says what
stands between two offsets, which is what can be cut out there (`Spells.cut`).

No byte of a character outside of ASCII looks like a character of ASCII (`not_oneByte_of_mem`).  So a
byte that does is a whole character, and a text can be cut on both sides of it (`isCut_of_oneByte`). -/

namespace LiveMarkup

open Markup

/-! ## What is left of a text -/

/-- At a byte offset, these characters are left of a text. -/
def Remains (text : String) (i : Nat) (rest : List Char) : Prop :=
  ∃ before : String, text = before ++ String.ofList rest ∧ i = before.utf8ByteSize

theorem isCut_iff {text : String} {i : Nat} : IsCut text i ↔ ∃ rest, Remains text i rest := by
  rw [IsCut, String.Pos.Raw.isValid_iff_exists_append]
  constructor
  · rintro ⟨before, rest, rfl, same⟩
    exact ⟨rest.toList, before, by simp, congrArg String.Pos.Raw.byteIdx same⟩
  · rintro ⟨rest, before, rfl, rfl⟩
    exact ⟨before, String.ofList rest, rfl, rfl⟩

theorem isCut_end (text : String) : IsCut text text.utf8ByteSize :=
  String.Pos.Raw.isValid_rawEndPos

theorem utf8ByteSize_cons (c : Char) (rest : List Char) : (String.ofList (c :: rest)).utf8ByteSize =
    c.utf8Size + (String.ofList rest).utf8ByteSize := by
  rw [← List.singleton_append, String.ofList_append, String.utf8ByteSize_append]
  simp

namespace Remains

variable {text : String} {i : Nat} {c : Char} {rest : List Char}

theorem start (text : String) : Remains text 0 text.toList :=
  ⟨"", by simp, rfl⟩

theorem isCut (remains : Remains text i rest) : IsCut text i :=
  isCut_iff.mpr ⟨rest, remains⟩

theorem size (remains : Remains text i rest) :
    i + (String.ofList rest).utf8ByteSize = text.utf8ByteSize := by
  obtain ⟨before, rfl, rfl⟩ := remains
  exact String.utf8ByteSize_append.symm

theorem of_end (remains : Remains text i []) : i = text.utf8ByteSize := by
  simpa using remains.size

/-- At the end of a text, nothing is left of it. -/
theorem eq_nil (remains : Remains text i rest) (past : text.utf8ByteSize ≤ i) : rest = [] := by
  have sized := remains.size
  have empty : (String.ofList rest).utf8ByteSize = 0 := by omega
  rw [String.utf8ByteSize_eq_zero_iff, ← String.toList_inj, String.toList_ofList] at empty
  exact empty

/-- What is left further on, behind some of the characters. -/
theorem skip {front back : List Char} (remains : Remains text i (front ++ back)) :
    Remains text (i + (String.ofList front).utf8ByteSize) back := by
  obtain ⟨before, rfl, rfl⟩ := remains
  exact ⟨before ++ String.ofList front, by simp [String.append_assoc], by simp⟩

theorem next (remains : Remains text i (c :: rest)) : Remains text (i + c.utf8Size) rest := by
  have further : Remains text (i + (String.ofList [c]).utf8ByteSize) rest := skip remains
  rwa [utf8ByteSize_cons, String.ofList_nil, String.utf8ByteSize_empty, Nat.add_zero] at further

/-- An offset determines what is left behind it. -/
theorem unique {other : List Char} (remains : Remains text i rest) (again : Remains text i other) :
    rest = other := by
  obtain ⟨before, rfl, rfl⟩ := remains
  obtain ⟨before', same, sized⟩ := again
  have bytes := congrArg String.toByteArray same
  rw [String.toByteArray_append, String.toByteArray_append] at bytes
  have front := ByteArray.append_inj_left bytes sized
  rw [front, ByteArray.append_right_inj, String.toByteArray_inj] at bytes
  exact String.ofList_inj.mp bytes

end Remains

/-! ## What stands between two offsets -/

/-- From one offset up to another, a text consists of these characters. -/
def Spells (text : String) (start i : Nat) (name : List Char) : Prop :=
  ∃ rest, Remains text start (name ++ rest) ∧ i = start + (String.ofList name).utf8ByteSize

namespace Spells

variable {text : String} {start i : Nat} {name : List Char} {c : Char} {rest : List Char}

/-- What a text spells can be cut out of it. -/
theorem cut (spells : Spells text start i name) :
    LiveMarkup.cut text start i = .ok (String.ofList name) := by
  obtain ⟨rest, remains, rfl⟩ := spells
  have bounds : start ≤ start + (String.ofList name).utf8ByteSize ∧ IsCut text start ∧
      IsCut text (start + (String.ofList name).utf8ByteSize) :=
    ⟨Nat.le_add_right _ _, remains.isCut, remains.skip.isCut⟩
  rw [LiveMarkup.cut, dif_pos bounds]
  obtain ⟨before, rfl, rfl⟩ := remains
  have middle : ((before ++ String.ofList (name ++ rest)).toByteArray).extract
      before.utf8ByteSize (before.utf8ByteSize + (String.ofList name).utf8ByteSize) =
        (String.ofList name).toByteArray := by
    simp only [String.ofList_append, String.toByteArray_append, ← String.size_toByteArray]
    rw [← Nat.add_zero before.toByteArray.size, Nat.add_assoc, ByteArray.extract_append_size_add,
      Nat.zero_add, ByteArray.extract_append_eq_left rfl]
  congr 1
  exact String.toByteArray_inj.mp middle

/-- The first character of a name. -/
theorem first (remains : Remains text i (c :: rest)) : Spells text i (i + c.utf8Size) [c] :=
  ⟨rest, remains, by rw [utf8ByteSize_cons]; rfl⟩

/-- Another character of a name. -/
theorem more (spells : Spells text start i name) (remains : Remains text i (c :: rest)) :
    Spells text start (i + c.utf8Size) (name ++ [c]) := by
  obtain ⟨other, begun, rfl⟩ := spells
  obtain rfl := begun.skip.unique remains
  refine ⟨rest, by simpa using begun, ?_⟩
  rw [String.ofList_append, String.utf8ByteSize_append, utf8ByteSize_cons, String.ofList_nil,
    String.utf8ByteSize_empty, Nat.add_zero, Nat.add_assoc]

/-- What is left of a text is spelled up to its end. -/
theorem of_remains (remains : Remains text i rest) : Spells text i text.utf8ByteSize rest :=
  ⟨[], by rwa [List.append_nil], remains.size.symm⟩

end Spells

/-! ## Bytes of characters -/

/-- A character of ASCII, which is a single byte. -/
def OneByte (c : Char) : Prop :=
  c.utf8Size = 1

instance (c : Char) : Decidable (OneByte c) :=
  inferInstanceAs (Decidable (c.utf8Size = 1))

theorem oneByte_ofUInt8_iff {b : UInt8} : OneByte (.ofUInt8 b) ↔ b.toNat ≤ 127 := by
  rw [OneByte, Char.utf8Size_eq_one_iff, UInt32.le_iff_toNat_le]
  rfl

theorem ofUInt8_injective {b d : UInt8} (same : Char.ofUInt8 b = .ofUInt8 d) : b = d := by
  have values : b.toUInt32.toNat = d.toUInt32.toNat := congrArg (·.val.toNat) same
  exact UInt8.toNat_inj.mp values

/-- A byte of a character outside of ASCII is not a character of ASCII. -/
theorem not_oneByte_of_mem {c : Char} (wide : ¬ OneByte c) {b : UInt8}
    (member : b ∈ String.utf8EncodeChar c) : ¬ OneByte (.ofUInt8 b) := by
  have high {x mark : UInt8} (marked : 128 ≤ mark.toNat) : ¬ (x ||| mark).toNat ≤ 127 := by
    have := Nat.right_le_or (n := x.toNat) (m := mark.toNat)
    rw [UInt8.toNat_or]
    omega
  rw [oneByte_ofUInt8_iff]
  obtain one | two | three | four := c.utf8Size_eq
  · exact absurd one wide
  · simp only [String.utf8EncodeChar_eq_cons_cons two, List.mem_cons, List.not_mem_nil,
      or_false] at member
    obtain rfl | rfl := member <;> exact high (by decide)
  · simp only [String.utf8EncodeChar_eq_cons_cons_cons three, List.mem_cons, List.not_mem_nil,
      or_false] at member
    obtain rfl | rfl | rfl := member <;> exact high (by decide)
  · simp only [String.utf8EncodeChar_eq_cons_cons_cons_cons four, List.mem_cons, List.not_mem_nil,
      or_false] at member
    obtain rfl | rfl | rfl | rfl := member <;> exact high (by decide)

theorem Remains.byte {text : String} {i j : Nat} {c : Char} {rest : List Char}
    (remains : Remains text i (c :: rest)) (within : j < c.utf8Size) :
    ∃ inside : i + j < text.utf8ByteSize,
      (String.utf8EncodeChar c)[j]? = some (byteAt text (i + j) inside) := by
  have inside : i + j < text.utf8ByteSize := by
    rw [← remains.size, utf8ByteSize_cons]
    omega
  refine ⟨inside, ?_⟩
  obtain ⟨before, rfl, rfl⟩ := remains
  have bytes : (before ++ String.ofList (c :: rest)).toByteArray =
      before.toByteArray ++ ((String.utf8EncodeChar c).toByteArray ++ rest.utf8Encode) := by
    rw [String.toByteArray_append, String.toByteArray_ofList, List.utf8Encode_cons,
      List.utf8Encode_singleton]
  have behind : before.toByteArray.size + j - before.toByteArray.size = j :=
    Nat.add_sub_cancel_left ..
  have among : j < (String.utf8EncodeChar c).toByteArray.size := by simpa using within
  simp only [byteAt, String.getUTF8Byte, bytes, ← String.size_toByteArray]
  rw [ByteArray.getElem_append_right (Nat.le_add_right _ _),
    ByteArray.getElem_append_left (by rwa [behind]), List.getElem_toByteArray]
  simp only [behind]
  exact List.getElem?_eq_getElem _

section

variable {text : String} {i : Nat} {c : Char} {rest : List Char}

theorem Remains.plain (remains : Remains text i (c :: rest)) (plain : OneByte c) :
    ∃ inside : i < text.utf8ByteSize, Char.ofUInt8 (byteAt text i inside) = c := by
  obtain ⟨inside, same⟩ := remains.byte (Nat.lt_of_lt_of_eq Nat.zero_lt_one plain.symm)
  rw [String.utf8EncodeChar_eq_singleton plain] at same
  have byte : c.val.toUInt8 = byteAt text i inside := Option.some.inj same
  refine ⟨inside, ?_⟩
  rw [← byte, ← Char.val_inj, ← UInt32.toNat_inj]
  rw [OneByte, Char.utf8Size_eq_one_iff, UInt32.le_iff_toNat_le] at plain
  exact Nat.mod_eq_of_lt (Nat.lt_of_le_of_lt plain (by decide))

theorem Remains.wide (remains : Remains text i (c :: rest)) (wide : ¬ OneByte c) {j : Nat}
    (within : j < c.utf8Size) : ∃ inside : i + j < text.utf8ByteSize,
      ¬ OneByte (.ofUInt8 (byteAt text (i + j) inside)) := by
  obtain ⟨inside, same⟩ := remains.byte within
  exact ⟨inside, not_oneByte_of_mem wide (List.mem_of_getElem? same)⟩

/-- Every byte of a text belongs to a character. -/
theorem exists_remains (inside : i < text.utf8ByteSize) : ∃ start j c rest,
    Remains text start (c :: rest) ∧ j < c.utf8Size ∧ i = start + j := by
  have going {start : Nat} {chars : List Char} (remains : Remains text start chars)
      (begun : start ≤ i) : ∃ start j c rest,
        Remains text start (c :: rest) ∧ j < c.utf8Size ∧ i = start + j := by
    induction chars generalizing start with
    | nil =>
      rw [remains.of_end] at begun
      exact absurd inside (Nat.not_lt.mpr begun)
    | cons c chars ih =>
      by_cases within : i < start + c.utf8Size
      · exact ⟨start, i - start, c, chars, remains, by omega, by omega⟩
      · exact ih remains.next (Nat.not_lt.mp within)
  exact going (.start text) (Nat.zero_le i)

/-- A text can be cut on both sides of a character of ASCII. -/
theorem isCut_of_oneByte {inside : i < text.utf8ByteSize}
    (plain : OneByte (.ofUInt8 (byteAt text i inside))) : IsCut text i ∧ IsCut text (i + 1) := by
  obtain ⟨start, j, c, rest, remains, within, rfl⟩ := exists_remains inside
  by_cases single : OneByte c
  · -- The character has no other byte than its first one.
    obtain rfl : j = 0 := by
      rw [single] at within
      exact Nat.lt_one_iff.mp within
    have behind := remains.next.isCut
    rw [single] at behind
    exact ⟨remains.isCut, behind⟩
  · obtain ⟨_, foreign⟩ := remains.wide single within
    exact absurd plain foreign

end

/-! ## Characters seen through their first bytes -/

theorem oneByte_of_isBlank {c : Char} (blank : isBlank c = true) : OneByte c := by
  simp only [isBlank, Bool.or_eq_true, beq_iff_eq] at blank
  obtain (((rfl | rfl) | rfl) | rfl) | rfl := blank <;> rfl

theorem oneByte_of_isAlpha {c : Char} (letter : c.isAlpha = true) : OneByte c := by
  rw [OneByte, Char.utf8Size_eq_one_iff, UInt32.le_iff_toNat_le]
  rw [isAlpha_iff, isUpper_iff, isLower_iff] at letter
  simp only [UInt32.le_iff_toNat_le] at letter
  have bounds : 'Z'.val.toNat ≤ 127 ∧ 'z'.val.toNat ≤ 127 := by decide
  obtain ⟨-, small⟩ | ⟨-, small⟩ := letter
  · exact Nat.le_trans small bounds.1
  · exact Nat.le_trans small bounds.2

/-- What the first byte of a character is read as. -/
def StandsFor (d c : Char) : Prop :=
  d = c ∨ ¬ OneByte d ∧ ¬ OneByte c

namespace StandsFor

variable {d c : Char}

theorem eq_iff (stands : StandsFor d c) {x : Char} (plain : OneByte x) : d = x ↔ c = x := by
  obtain rfl | ⟨wide, wide'⟩ := stands
  · rfl
  · constructor
    · rintro rfl
      exact absurd plain wide
    · rintro rfl
      exact absurd plain wide'

/-- A property that only characters of ASCII have is seen from the first byte. -/
theorem congr (stands : StandsFor d c) {property : Char → Bool}
    (plain : ∀ {x : Char}, property x = true → OneByte x) : property d = property c := by
  obtain rfl | ⟨wide, wide'⟩ := stands
  · rfl
  · rw [Bool.eq_iff_iff]
    exact ⟨fun holds => absurd (plain holds) wide, fun holds => absurd (plain holds) wide'⟩

theorem isBlank (stands : StandsFor d c) : Markup.isBlank d = Markup.isBlank c :=
  stands.congr oneByte_of_isBlank

theorem isAlpha (stands : StandsFor d c) : d.isAlpha = c.isAlpha :=
  stands.congr oneByte_of_isAlpha

end StandsFor

theorem Remains.stands {text : String} {i : Nat} {c : Char} {rest : List Char}
    (remains : Remains text i (c :: rest)) :
    ∃ inside : i < text.utf8ByteSize, StandsFor (.ofUInt8 (byteAt text i inside)) c := by
  by_cases plain : OneByte c
  · obtain ⟨inside, same⟩ := remains.plain plain
    exact ⟨inside, .inl same⟩
  · obtain ⟨inside, wide⟩ := remains.wide plain c.utf8Size_pos
    exact ⟨inside, .inr ⟨wide, plain⟩⟩

end LiveMarkup
