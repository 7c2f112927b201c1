import Mathlib.Logic.Relation
import LiveMarkup.Proofs.Bytes.Agreement

/-! # Reading bytes keeps to the segment

A remembered offset is one of the segment that is being read, it is not ahead of the index, and it
stands between two characters.  `ByteState.Sound` is the invariant behind this: it says so of the states
that remember an offset, and it has the index itself stand between two characters in those states that
can begin a name or look for an end tag from there.  Every turn of the loop keeps it
(`ByteReader.turns_turn`), and with it no turn ends in a fault.

A value can only stand where no offset is remembered, so the next segment is begun without one
(`ByteReader.fresh_place`). -/

namespace LiveMarkup

open Markup

/-- What a state relies on at a byte of a text. -/
def ByteState.Sound (text : String) (i : Nat) : ByteState → Prop
  | tagName _ start | attributeName start => start ≤ i ∧ IsCut text start
  | beforeAttributeName | afterAttributeName | selfClosing | rawText => IsCut text i
  | quotedValue quote _ => OneByte (.ofUInt8 quote)
  | comment dashes => dashes ≤ 2
  | _ => True

/-- A text can be cut exactly at offsets that are in order and stand between characters. -/
theorem exists_cut_iff {text : String} {first last : Nat} :
    (∃ part, cut text first last = .ok part) ↔
      first ≤ last ∧ IsCut text first ∧ IsCut text last := by
  constructor
  · rintro ⟨part, parted⟩
    unfold cut at parted
    split at parted
    · next bounds => exact bounds
    · cases parted
  · intro bounds
    exact ⟨_, dif_pos bounds⟩

/-- Neither offset is beyond the end, but the first one is in the middle of a character. -/
example : cut "né" 2 3 = .error (.cut 2 3) := by
  decide

namespace ByteReader

variable {text : String} {i : Nat} {reader : ByteReader}

/-- A turn of the loop ends without a fault, inside of the text and in a state with what it relies
on. -/
def Turns (text : String) (result : Except ByteFault (ByteReader × Nat)) : Prop :=
  ∃ after next, result = .ok (after, next) ∧ next ≤ text.utf8ByteSize ∧ after.state.Sound text next

theorem turns_next (inside : i < text.utf8ByteSize) {after : ByteReader}
    (sound : after.state.Sound text (i + 1)) : Turns text (.ok (after, i + 1)) :=
  ⟨after, i + 1, rfl, inside, sound⟩

theorem turns_map {α : Type} {result : Except ByteFault α} {f : α → ByteReader × Nat}
    (returns : ∃ part, result = .ok part) (turns : ∀ part, Turns text (.ok (f part))) :
    Turns text (result.map f) := by
  obtain ⟨part, rfl⟩ := returns
  exact turns part

/-- The end of a name, which is cut out of the text. -/
theorem turns_cut {start : Nat} {f : String → ByteReader} (inside : i < text.utf8ByteSize)
    (begun : start ≤ i ∧ IsCut text start) (ended : IsCut text i)
    (sound : ∀ name, (f name).state.Sound text (i + 1)) :
    Turns text ((cut text start i).map fun name => (f name, i + 1)) := by
  obtain ⟨ahead, isCut⟩ := begun
  have named : ∃ name, cut text start i = .ok name := exists_cut_iff.mpr ⟨ahead, isCut, ended⟩
  exact turns_map named fun name => turns_next inside (sound name)

/-- Behind a tag, raw text may begin, and a cut is there. -/
theorem sound_closeTag (isCut : IsCut text i) (reader : ByteReader) (selfClosing : Bool) :
    (reader.closeTag selfClosing).state.Sound text i := by
  unfold closeTag
  split
  · exact isCut
  · trivial

/-- The end tag that is found begins with two characters of one byte, so its name begins at a cut. -/
theorem turns_skipRawText (here : reader.state = .rawText) (isCut : IsCut text i) :
    Turns text (reader.skipRawText text i) := by
  obtain ⟨rest, remains⟩ := isCut_iff.mp isCut
  rw [skipRawText, (Spells.of_remains remains).cut, Except.map, toList_lowerCase]
  split
  · next offset found =>
    obtain ⟨front, name, back, rfl, rfl, -⟩ := exists_endTag found
    have named := remains.endTag.isCut
    exact ⟨_, _, rfl, named.le_utf8ByteSize, Nat.le_refl _, named⟩
  · refine ⟨_, _, rfl, Nat.le_refl _, ?_⟩
    rw [here]
    exact isCut_end text

section

/-! What ends a name is of ASCII, so the text can be cut in front of it and behind it. -/

variable {b : UInt8} {c : Char} (inside : i < text.utf8ByteSize)
  (cuts : OneByte c → IsCut text i ∧ IsCut text (i + 1))

include inside cuts

theorem turns_tagOpen (here : reader.state = .tagOpen) : Turns text (reader.turnOn text i b c) := by
  rw [turnOn, here]
  dsimp only
  split
  · exact turns_next inside trivial
  split
  · exact turns_next inside trivial
  split
  · exact turns_next inside trivial
  split
  · next letter => exact turns_next inside ⟨Nat.le_succ i, (cuts (oneByte_of_isAlpha letter)).1⟩
  · -- Text is next, at the same byte, and relies on nothing.
    exact ⟨_, _, rfl, Nat.le_of_lt inside, trivial⟩

theorem turns_endTagOpen (here : reader.state = .endTagOpen) :
    Turns text (reader.turnOn text i b c) := by
  rw [turnOn, here]
  dsimp only
  split
  · next letter => exact turns_next inside ⟨Nat.le_succ i, (cuts (oneByte_of_isAlpha letter)).1⟩
  split <;> exact turns_next inside trivial

theorem turns_tagName {closing : Bool} {start : Nat} (here : reader.state = .tagName closing start)
    (begun : start ≤ i ∧ IsCut text start) : Turns text (reader.turnOn text i b c) := by
  rw [turnOn, here]
  dsimp only
  split
  · next blank =>
    obtain ⟨front, back⟩ := cuts (oneByte_of_isBlank blank)
    exact turns_cut inside begun front fun _ => back
  split
  · next slash =>
    obtain ⟨front, back⟩ := cuts (slash ▸ rfl)
    exact turns_cut inside begun front fun _ => back
  split
  · next closes =>
    obtain ⟨front, back⟩ := cuts (closes ▸ rfl)
    exact turns_cut inside begun front fun _ => sound_closeTag back ..
  · refine turns_next inside ?_
    rw [here]
    exact ⟨Nat.le_succ_of_le begun.1, begun.2⟩

theorem turns_beforeAttributeName (here : reader.state = .beforeAttributeName)
    (isCut : IsCut text i) : Turns text (reader.turnOn text i b c) := by
  rw [turnOn, here]
  dsimp only
  split
  · next blank =>
    refine turns_next inside ?_
    rw [here]
    exact (cuts (oneByte_of_isBlank blank)).2
  split
  · next slash => exact turns_next inside (cuts (slash ▸ rfl)).2
  split
  · next closes => exact turns_next inside (sound_closeTag (cuts (closes ▸ rfl)).2 ..)
  · -- Any byte begins a name, so it is the invariant that says that a character begins here.
    exact turns_next inside ⟨Nat.le_succ i, isCut⟩

theorem turns_attributeName {start : Nat} (here : reader.state = .attributeName start)
    (begun : start ≤ i ∧ IsCut text start) : Turns text (reader.turnOn text i b c) := by
  rw [turnOn, here]
  dsimp only
  split
  · next blank =>
    obtain ⟨front, back⟩ := cuts (oneByte_of_isBlank blank)
    exact turns_cut inside begun front fun _ => back
  split
  · next slash =>
    obtain ⟨front, back⟩ := cuts (slash ▸ rfl)
    exact turns_cut inside begun front fun _ => back
  split
  · next equals => exact turns_cut inside begun (cuts (equals ▸ rfl)).1 fun _ => trivial
  split
  · next closes =>
    obtain ⟨front, back⟩ := cuts (closes ▸ rfl)
    exact turns_cut inside begun front fun _ => sound_closeTag back ..
  · refine turns_next inside ?_
    rw [here]
    exact ⟨Nat.le_succ_of_le begun.1, begun.2⟩

theorem turns_afterAttributeName (here : reader.state = .afterAttributeName)
    (isCut : IsCut text i) : Turns text (reader.turnOn text i b c) := by
  rw [turnOn, here]
  dsimp only
  split
  · next blank =>
    refine turns_next inside ?_
    rw [here]
    exact (cuts (oneByte_of_isBlank blank)).2
  split
  · next slash => exact turns_next inside (cuts (slash ▸ rfl)).2
  split
  · exact turns_next inside trivial
  split
  · next closes => exact turns_next inside (sound_closeTag (cuts (closes ▸ rfl)).2 ..)
  · exact turns_next inside ⟨Nat.le_succ i, isCut⟩

theorem turns_unquotedValue (here : reader.state = .unquotedValue) :
    Turns text (reader.turnOn text i b c) := by
  rw [turnOn, here]
  dsimp only
  split
  · next blank => exact turns_next inside (cuts (oneByte_of_isBlank blank)).2
  split
  · next closes => exact turns_next inside (sound_closeTag (cuts (closes ▸ rfl)).2 ..)
  · exact turns_next inside (by rw [here]; trivial)

theorem turns_selfClosing (here : reader.state = .selfClosing) (isCut : IsCut text i) :
    Turns text (reader.turnOn text i b c) := by
  rw [turnOn, here]
  dsimp only
  split
  · next closes => exact turns_next inside (sound_closeTag (cuts (closes ▸ rfl)).2 ..)
  · -- Where an attribute may begin relies on the same cut, and the byte is the same.
    exact ⟨_, _, rfl, Nat.le_of_lt inside, isCut⟩

end

/-- The byte of a quote is kept, and it is of ASCII. -/
theorem turns_beforeAttributeValue {b : UInt8} (inside : i < text.utf8ByteSize)
    (cuts : OneByte (.ofUInt8 b) → IsCut text i ∧ IsCut text (i + 1))
    (here : reader.state = .beforeAttributeValue) :
    Turns text (reader.turnOn text i b (.ofUInt8 b)) := by
  rw [turnOn, here]
  dsimp only
  split
  · exact turns_next inside (by rw [here]; trivial)
  split
  · next quotes =>
    refine turns_next inside ?_
    show OneByte _
    obtain same | same := quotes <;> rw [same] <;> rfl
  split
  · next closes => exact turns_next inside (sound_closeTag (cuts (closes ▸ rfl)).2 ..)
  · exact turns_next inside trivial

theorem turns_quotedValue {b quote : UInt8} {empty : Bool} (inside : i < text.utf8ByteSize)
    (cuts : OneByte (.ofUInt8 b) → IsCut text i ∧ IsCut text (i + 1))
    (here : reader.state = .quotedValue quote empty) (plain : OneByte (.ofUInt8 quote)) :
    Turns text (reader.turnOn text i b (.ofUInt8 b)) := by
  rw [turnOn, here]
  dsimp only
  split
  · next same => exact turns_next inside (cuts (same ▸ plain)).2
  · exact turns_next inside plain

/-- A turn of the loop that begins with what the state relies on. -/
theorem turns_turn (inside : i < text.utf8ByteSize) (sound : reader.state.Sound text i) :
    Turns text (reader.turn text i inside) := by
  have cuts (plain : OneByte (.ofUInt8 (byteAt text i inside))) := isCut_of_oneByte plain
  unfold turn
  -- A state that relies on a cut hands it on to its own lemma.
  cases here : reader.state with
  | data =>
    rw [turnOn, here]
    dsimp only
    split <;> exact turns_next inside (by simp [enter, here, ByteState.Sound])
  | tagOpen => exact turns_tagOpen inside cuts here
  | endTagOpen => exact turns_endTagOpen inside cuts here
  | tagName closing start =>
    rw [here] at sound
    exact turns_tagName inside cuts here sound
  | beforeAttributeName =>
    rw [here] at sound
    exact turns_beforeAttributeName inside cuts here sound
  | attributeName start =>
    rw [here] at sound
    exact turns_attributeName inside cuts here sound
  | afterAttributeName =>
    rw [here] at sound
    exact turns_afterAttributeName inside cuts here sound
  | beforeAttributeValue => exact turns_beforeAttributeValue inside cuts here
  | quotedValue quote empty =>
    rw [here] at sound
    exact turns_quotedValue inside cuts here sound
  | unquotedValue => exact turns_unquotedValue inside cuts here
  | selfClosing =>
    rw [here] at sound
    exact turns_selfClosing inside cuts here sound
  | declaration dashes =>
    rw [turnOn, here]
    dsimp only
    split
    · refine turns_next inside ?_
      simp only [enter]
      split
      · exact Nat.zero_le 2
      · trivial
    split <;> exact turns_next inside trivial
  | comment dashes =>
    rw [here] at sound
    rw [turnOn, here]
    dsimp only
    split
    · exact turns_map ⟨_, increment_eq sound⟩ fun count => turns_next inside (Nat.min_le_right ..)
    split
    · exact turns_next inside trivial
    · exact turns_next inside (Nat.zero_le 2)
  | bogusComment =>
    rw [turnOn, here]
    dsimp only
    split <;> exact turns_next inside (by simp [enter, here, ByteState.Sound])
  | rawText =>
    rw [here] at sound
    rw [turnOn, here]
    exact turns_skipRawText here sound

/-! ## Whole segments -/

/-- The loop goes from one reader at a byte of a text to another one. -/
def Turn (text : String) (here there : ByteReader × Nat) : Prop :=
  ∃ inside, here.1.turn text here.2 inside = .ok there

/-- The reader is at a byte of the text or at its end, and what it relies on is so. -/
def Within (text : String) (here : ByteReader × Nat) : Prop :=
  here.2 ≤ text.utf8ByteSize ∧ here.1.state.Sound text here.2

theorem Within.exists_turn {here : ByteReader × Nat} (within : Within text here)
    (inside : here.2 < text.utf8ByteSize) : ∃ there, Turn text here there ∧ Within text there := by
  obtain ⟨after, next, turned, bounds⟩ := turns_turn inside within.2
  exact ⟨(after, next), ⟨inside, turned⟩, bounds⟩

theorem Within.turn {here there : ByteReader × Nat} (within : Within text here)
    (turn : Turn text here there) : Within text there := by
  obtain ⟨inside, turned⟩ := turn
  obtain ⟨other, ⟨_, again⟩, bounds⟩ := within.exists_turn inside
  rw [again] at turned
  cases turned
  exact bounds

theorem Within.reaches {here there : ByteReader × Nat} (within : Within text here)
    (reaches : Relation.ReflTransGen (Turn text) here there) : Within text there := by
  induction reaches with
  | refl => exact within
  | tail _ turn ih => exact ih.turn turn

/-- A turn that stays at its byte is followed by one that does not. -/
theorem Within.goesOn {here : ByteReader × Nat} (within : Within text here)
    (inside : here.2 < text.utf8ByteSize) : ∃ next, Turn text here next ∧
      (here.2 < next.2 ∨ next.2 = here.2 ∧ ∃ later, Turn text next later ∧ next.2 < later.2) := by
  obtain ⟨next, turn, within'⟩ := within.exists_turn inside
  refine ⟨next, turn, ?_⟩
  obtain ⟨_, turned⟩ := turn
  obtain further | ⟨same, tired⟩ := turn_progress turned
  · exact .inl further
  · obtain ⟨later, ⟨inside', turned'⟩, -⟩ := within'.exists_turn (same ▸ inside)
    refine .inr ⟨same, later, ⟨inside', turned'⟩, ?_⟩
    -- No state has the patience for two turns at one byte.
    obtain further | ⟨-, tired'⟩ := turn_progress turned'
    · exact further
    · have atMost : here.1.state.patience ≤ 1 := by
        unfold ByteState.patience
        split <;> decide
      omega

/-- What the loop comes to, it comes to turn by turn. -/
theorem exists_reaches {after : ByteReader} (read : reader.readFrom text i = .ok after) :
    ∃ j, text.utf8ByteSize ≤ j ∧ Relation.ReflTransGen (Turn text) (reader, i) (after, j) := by
  induction reader, i using readFrom.induct text with
  | case1 reader i inside fault turned =>
    rw [readFrom, dif_pos inside] at read
    split at read
    · cases read
    · next same =>
      rw [turned] at same
      cases same
  | case2 reader i inside other next turned ih =>
    rw [readFrom_turn turned] at read
    obtain ⟨j, past, reaches⟩ := ih read
    exact ⟨j, past, .head ⟨inside, turned⟩ reaches⟩
  | case3 reader i outside =>
    rw [readFrom_end reader (Nat.not_lt.mp outside)] at read
    cases read
    exact ⟨i, Nat.not_lt.mp outside, .refl⟩

/-! ## From one segment to the next -/

/-- What a segment is begun with: no offset is remembered, and any text will do. -/
structure Fresh (reader : ByteReader) : Prop where
  forgets : reader.state.start? = none
  sound : ∀ text i, reader.state.Sound text i

theorem Fresh.start : Fresh .start :=
  ⟨rfl, fun _ _ => trivial⟩

theorem Fresh.within (fresh : Fresh reader) (text : String) : Within text (reader, 0) :=
  ⟨Nat.zero_le _, fresh.sound text 0⟩

/-- A value can only stand where no name is being read. -/
theorem fresh_place {next : String} {last : Bool} {position : Position} {after : ByteReader}
    (sound : reader.state.Sound text i) (placed : reader.place next last = .ok (position, after)) :
    Fresh after := by
  unfold place at placed
  cases here : reader.state with
  | data =>
    rw [here] at placed
    cases placed
    exact ⟨by rw [here]; rfl, fun _ _ => by rw [here]; trivial⟩
  | beforeAttributeValue =>
    simp only [here] at placed
    split at placed
    · cases placed
      exact ⟨rfl, fun _ _ => trivial⟩
    · cases placed
  | quotedValue quote empty =>
    rw [here] at sound
    simp only [here] at placed
    split at placed
    · cases placed
      exact ⟨rfl, fun _ _ => sound⟩
    · cases placed
  | _ =>
    rw [here] at placed
    cases placed

theorem Fresh.crosses {segment next : String} {last : Bool} {after : ByteReader}
    (fresh : Fresh reader) (crosses : reader.Crosses segment next last after) : Fresh after := by
  obtain ⟨read, position, fed, placed⟩ := crosses
  obtain ⟨_, -, reaches⟩ := exists_reaches fed
  exact fresh_place ((fresh.within segment).reaches reaches).2 placed

theorem Fresh.arrives {segments : List String} {index : Nat} {there : ByteReader} {segment : String}
    (fresh : Fresh reader) (arrives : Arrives Crosses reader segments index there segment) :
    Fresh there := by
  induction arrives with
  | now => exact fresh
  | later crosses _ ih => exact ih (fresh.crosses crosses)

/-- What the loop comes to in the segment with the given index, if that is read at all: a reader and the
byte that it is at. -/
def Visits (segments : List String) (index : Nat) (segment : String) (there : ByteReader × Nat) : Prop :=
  ∃ reader, Arrives Crosses start segments index reader segment ∧
    Relation.ReflTransGen (Turn segment) (reader, 0) there

theorem Visits.within {segments : List String} {index : Nat} {segment : String}
    {there : ByteReader × Nat} (visits : Visits segments index segment there) :
    Within segment there := by
  obtain ⟨reader, arrives, reaches⟩ := visits
  exact ((Fresh.start.arrives arrives).within segment).reaches reaches

/-- Reading the bytes of segments goes well, segment by segment and turn by turn. -/
structure Orderly (segments : List String) : Prop where
  /-- There is an answer, the one that reading the characters gives. -/
  returns : positions segments = .ok (LiveMarkup.positions segments)
  /-- Where a segment begins, no offset is remembered. -/
  forgets : ∀ {index : Nat} {reader : ByteReader} {segment : String},
    Arrives Crosses start segments index reader segment → reader.state.start? = none
  /-- Where a name is being read, it begins between two characters of the same segment, and not ahead
  of the index. -/
  remembers : ∀ {index begun : Nat} {segment : String} {there : ByteReader × Nat},
    Visits segments index segment there → there.1.state.start? = some begun →
      begun ≤ there.2 ∧ there.2 ≤ segment.utf8ByteSize ∧ IsCut segment begun
  /-- Raw text is looked through from an offset between two characters on. -/
  looksUp : ∀ {index : Nat} {segment : String} {there : ByteReader × Nat},
    Visits segments index segment there → there.1.state = .rawText → IsCut segment there.2
  /-- As long as there is a byte, a turn of the loop ends without a fault, so what it cuts out of the
  segment is between two offsets as `exists_cut_iff` has them.  It goes on to a later byte, or it takes
  the reader to where the next turn does. -/
  goesOn : ∀ {index : Nat} {segment : String} {there : ByteReader × Nat},
    Visits segments index segment there → there.2 < segment.utf8ByteSize →
      ∃ next, Turn segment there next ∧ (there.2 < next.2 ∨
        next.2 = there.2 ∧ ∃ later, Turn segment next later ∧ next.2 < later.2)

/-- Whatever the segments are, reading their bytes is orderly. -/
theorem reads_orderly (segments : List String) : Orderly segments where
  returns := positions_eq segments
  forgets arrives := (Fresh.start.arrives arrives).forgets
  remembers visits remembered := by
    obtain ⟨bound, sound⟩ := visits.within
    unfold ByteState.start? at remembered
    split at remembered
    · next here =>
      cases remembered
      rw [here] at sound
      exact ⟨sound.1, bound, sound.2⟩
    · next here =>
      cases remembered
      rw [here] at sound
      exact ⟨sound.1, bound, sound.2⟩
    · cases remembered
  looksUp visits here := by
    have sound := visits.within.2
    rwa [here] at sound
  goesOn visits inside := visits.within.goesOn inside

end ByteReader

end LiveMarkup
