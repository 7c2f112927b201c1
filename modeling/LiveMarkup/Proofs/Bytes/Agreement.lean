import LiveMarkup.Proofs.Bytes.Seeking

/-! # Reading bytes agrees with reading characters

The reader of bytes tracks the segment reader through every text (`Tracks.readFrom`): where one has
collected the letters of a name, the other one remembers where they begin, and what it cuts out of the
text later on are these letters.  A character takes it one turn of the loop for each byte, and another
one if it has to change its mind about the first; an end tag in raw text it comes to at once.

Between two segments no state remembers an offset, so nothing is left of the text that was read, and the
positions of values are the same (`ByteReader.positions_eq`). -/

namespace LiveMarkup

open Markup

/-! ## States that belong together -/

/-- States of the two readers at a byte offset of a text, in a tag or an element of the given name. -/
inductive InPlace (text : String) (i : Nat) (tag : String) : ByteState → ReaderState → Prop where
  | data : InPlace text i tag .data .data
  | tagOpen : InPlace text i tag .tagOpen .tagOpen
  | endTagOpen : InPlace text i tag .endTagOpen .endTagOpen
  | tagName {closing : Bool} {start : Nat} {name word : List Char} (spells : Spells text start i word)
      (same : word.map Char.toLower = name.reverse.map Char.toLower) :
      InPlace text i tag (.tagName closing start) (.tagName closing name)
  | beforeAttributeName : InPlace text i tag .beforeAttributeName .beforeAttributeName
  | attributeName {start : Nat} {name : List Char} (spells : Spells text start i name.reverse) :
      InPlace text i tag (.attributeName start) (.attributeName name)
  | afterAttributeName : InPlace text i tag .afterAttributeName .afterAttributeName
  | beforeAttributeValue : InPlace text i tag .beforeAttributeValue .beforeAttributeValue
  | quotedValue {quote : UInt8} {empty : Bool} (plain : OneByte (.ofUInt8 quote)) :
      InPlace text i tag (.quotedValue quote empty) (.quotedValue (.ofUInt8 quote) empty)
  | unquotedValue : InPlace text i tag .unquotedValue .unquotedValue
  | selfClosing : InPlace text i tag .selfClosing .selfClosing
  | declaration (dash : Bool) :
      InPlace text i tag (.declaration (if dash then 1 else 0)) (.declaration dash)
  | comment {dashes : Nat} (few : dashes ≤ 2) :
      InPlace text i tag (.comment dashes) (.comment dashes)
  | bogusComment : InPlace text i tag .bogusComment .bogusComment
  /-- In the middle of an end tag the reader of bytes is elsewhere, unless the text is over. -/
  | rawText {missing : List Char} (listed : tag ∈ rawTextElements)
      (waits : missing = SegmentReader.endTagStart tag ∨ i = text.utf8ByteSize) :
      InPlace text i tag .rawText (.rawText missing)

/-- What the two readers know besides their states. -/
structure Shares (bytes : ByteReader) (reader : SegmentReader) : Prop where
  tag : bytes.tag = reader.tag
  closing : bytes.closing = reader.closing
  lastAttribute : bytes.lastAttribute = reader.lastAttribute

/-- The reader of bytes is where the segment reader is behind the same characters. -/
structure Tracks (text : String) (i : Nat) (bytes : ByteReader) (reader : SegmentReader) : Prop
    extends Shares bytes reader where
  state : InPlace text i reader.tag bytes.state reader.state

namespace Shares

variable {text : String} {i : Nat} {bytes : ByteReader} {reader : SegmentReader}

theorem moved (shares : Shares bytes reader) (here : ByteState) : Shares (bytes.enter here) reader :=
  ⟨shares.tag, shares.closing, shares.lastAttribute⟩

theorem enter (shares : Shares bytes reader) {here : ByteState} {there : ReaderState}
    (state : InPlace text i reader.tag here there) :
    Tracks text i (bytes.enter here) (reader.enter there) :=
  ⟨⟨shares.tag, shares.closing, shares.lastAttribute⟩, state⟩

/-- A state that the reader of bytes does not have to enter. -/
theorem stay (shares : Shares bytes reader) {there : ReaderState}
    (state : InPlace text i reader.tag bytes.state there) : Tracks text i bytes (reader.enter there) :=
  ⟨⟨shares.tag, shares.closing, shares.lastAttribute⟩, state⟩

theorem closeTag (shares : Shares bytes reader) (selfClosing : Bool) :
    Tracks text i (bytes.closeTag selfClosing) (reader.closeTag selfClosing) := by
  unfold ByteReader.closeTag SegmentReader.closeTag
  rw [shares.tag, shares.closing]
  split
  · next raw =>
    simp only [Bool.and_eq_true, List.contains_iff_mem] at raw
    exact shares.enter (.rawText raw.2 (.inl rfl))
  · exact shares.enter .data

theorem nameTag (shares : Shares bytes reader) (closing : Bool) {word name : List Char}
    (same : word.map Char.toLower = name.reverse.map Char.toLower) :
    Shares (bytes.nameTag closing (String.ofList word)) (reader.nameTag closing name) := by
  refine ⟨?_, rfl, shares.lastAttribute⟩
  show lowerCase (String.ofList word) = lowerCase (String.ofList name.reverse)
  rw [← String.toList_inj, toList_lowerCase, toList_lowerCase, same]

theorem nameAttribute (shares : Shares bytes reader) (name : List Char) :
    Shares (bytes.nameAttribute (String.ofList name.reverse)) (reader.nameAttribute name) :=
  ⟨shares.tag, shares.closing, rfl⟩

end Shares

/-! ## Characters -/

/-- Only the first byte of a character counts. -/
theorem ByteReader.turnOn_stands {d c : Char} (stands : StandsFor d c) (reader : ByteReader)
    (text : String) (i : Nat) (b : UInt8) :
    reader.turnOn text i b d = reader.turnOn text i b c := by
  have equal {x : Char} (plain : OneByte x) : d = x ↔ c = x := stands.eq_iff plain
  unfold turnOn
  rw [stands.isBlank, stands.isAlpha]
  simp (disch := decide) only [equal]

/-- Where one or two turns of the loop at the first byte of a character take the reader of bytes, given
the result of the first one: to where the segment reader is behind the character. -/
inductive Leads (text : String) (i : Nat) (b : UInt8) (c : Char) (next : SegmentReader) :
    Except ByteFault (ByteReader × Nat) → Prop where
  | once {after : ByteReader} (tracks : Tracks text (i + c.utf8Size) after next) :
      Leads text i b c next (.ok (after, i + 1))
  | again {other : ByteReader} (leads : Leads text i b c next (other.turnOn text i b c)) :
      Leads text i b c next (.ok (other, i))

section

variable {text : String} {i : Nat} {b : UInt8} {c : Char} {rest : List Char} {bytes : ByteReader}
  {reader : SegmentReader}

/-- Readers that decide the same are followed into both outcomes. -/
theorem Leads.ite {p : Prop} [Decidable p] {yes no : SegmentReader}
    {whenYes whenNo : Except ByteFault (ByteReader × Nat)}
    (holds : p → Leads text i b c yes whenYes) (fails : ¬ p → Leads text i b c no whenNo) :
    Leads text i b c (if p then yes else no) (if p then whenYes else whenNo) := by
  by_cases decided : p
  · rw [if_pos decided, if_pos decided]
    exact holds decided
  · rw [if_neg decided, if_neg decided]
    exact fails decided

namespace Tracks

/-! ### Tags -/

theorem leads_data (shares : Shares bytes reader) (here : bytes.state = .data) :
    Leads text i b c (reader.stepData c) (bytes.turnOn text i b c) := by
  rw [SegmentReader.stepData, ByteReader.turnOn, here]
  dsimp only
  by_cases less : c = '<'
  · simp only [if_pos less]
    exact .once (shares.enter .tagOpen)
  · simp only [if_neg less]
    exact .once (shares.stay (by rw [here]; exact .data))

theorem leads_tagOpen (shares : Shares bytes reader) (remains : Remains text i (c :: rest))
    (here : bytes.state = .tagOpen) (there : reader.state = .tagOpen) :
    Leads text i b c (reader.step c) (bytes.turnOn text i b c) := by
  rw [SegmentReader.step, there, ByteReader.turnOn, here]
  refine .ite (fun _ => .once (shares.enter (.declaration false))) fun _ => ?_
  refine .ite (fun _ => .once (shares.enter .endTagOpen)) fun _ => ?_
  refine .ite (fun _ => .once (shares.enter .bogusComment)) fun _ => ?_
  refine .ite (fun _ => .once (shares.enter (.tagName (.first remains) rfl))) fun _ => ?_
  -- It was no tag, and the byte is looked at again as part of a text.
  exact .again (leads_data (shares.moved _) rfl)

theorem leads_endTagOpen (shares : Shares bytes reader) (remains : Remains text i (c :: rest))
    (here : bytes.state = .endTagOpen) (there : reader.state = .endTagOpen) :
    Leads text i b c (reader.step c) (bytes.turnOn text i b c) := by
  rw [SegmentReader.step, there, ByteReader.turnOn, here]
  refine .ite (fun _ => .once (shares.enter (.tagName (.first remains) rfl))) fun _ => ?_
  refine .ite (fun _ => .once (shares.enter .data)) fun _ => ?_
  exact .once (shares.enter .bogusComment)

theorem leads_tagName {closing : Bool} {start : Nat} {name word : List Char}
    (shares : Shares bytes reader) (remains : Remains text i (c :: rest))
    (spells : Spells text start i word)
    (same : word.map Char.toLower = name.reverse.map Char.toLower)
    (here : bytes.state = .tagName closing start) (there : reader.state = .tagName closing name) :
    Leads text i b c (reader.step c) (bytes.turnOn text i b c) := by
  have named := shares.nameTag closing same
  rw [SegmentReader.step, there, ByteReader.turnOn, here]
  dsimp only
  rw [spells.cut]
  refine .ite (fun _ => .once (named.enter .beforeAttributeName)) fun _ => ?_
  refine .ite (fun _ => .once (named.enter .selfClosing)) fun _ => ?_
  refine .ite (fun _ => .once (named.closeTag false)) fun _ => .once (shares.stay ?_)
  rw [here]
  refine .tagName (spells.more remains) ?_
  simp only [List.map_append, same, List.reverse_cons]

theorem leads_beforeAttributeName (shares : Shares bytes reader)
    (remains : Remains text i (c :: rest)) (here : bytes.state = .beforeAttributeName) :
    Leads text i b c (reader.stepBeforeAttributeName c) (bytes.turnOn text i b c) := by
  rw [SegmentReader.stepBeforeAttributeName, ByteReader.turnOn, here]
  refine .ite (fun _ => .once (shares.stay ?_)) fun _ => ?_
  · rw [here]
    exact .beforeAttributeName
  refine .ite (fun _ => .once (shares.enter .selfClosing)) fun _ => ?_
  refine .ite (fun _ => .once (shares.closeTag false)) fun _ => ?_
  exact .once (shares.enter (.attributeName (.first remains)))

theorem leads_selfClosing (shares : Shares bytes reader) (remains : Remains text i (c :: rest))
    (here : bytes.state = .selfClosing) (there : reader.state = .selfClosing) :
    Leads text i b c (reader.step c) (bytes.turnOn text i b c) := by
  rw [SegmentReader.step, there, ByteReader.turnOn, here]
  refine .ite (fun _ => .once (shares.closeTag true)) fun _ => ?_
  -- The slash was not the end of the tag, and an attribute may begin with the same byte.
  exact .again (leads_beforeAttributeName (shares.moved _) remains rfl)

/-! ### Attributes -/

theorem leads_attributeName {start : Nat} {name : List Char} (shares : Shares bytes reader)
    (remains : Remains text i (c :: rest)) (spells : Spells text start i name.reverse)
    (here : bytes.state = .attributeName start) (there : reader.state = .attributeName name) :
    Leads text i b c (reader.step c) (bytes.turnOn text i b c) := by
  have named := shares.nameAttribute name
  rw [SegmentReader.step, there, ByteReader.turnOn, here]
  dsimp only
  rw [spells.cut]
  refine .ite (fun _ => .once (named.enter .afterAttributeName)) fun _ => ?_
  refine .ite (fun _ => .once (named.enter .selfClosing)) fun _ => ?_
  refine .ite (fun _ => .once (named.enter .beforeAttributeValue)) fun _ => ?_
  refine .ite (fun _ => .once (named.closeTag false)) fun _ => .once (shares.stay ?_)
  rw [here]
  refine .attributeName ?_
  rw [List.reverse_cons]
  exact spells.more remains

theorem leads_afterAttributeName (shares : Shares bytes reader)
    (remains : Remains text i (c :: rest)) (here : bytes.state = .afterAttributeName)
    (there : reader.state = .afterAttributeName) :
    Leads text i b c (reader.step c) (bytes.turnOn text i b c) := by
  rw [SegmentReader.step, there, ByteReader.turnOn, here]
  refine .ite (fun _ => .once ⟨shares, ?_⟩) fun solid => ?_
  · rw [here, there]
    exact .afterAttributeName
  rw [SegmentReader.stepBeforeAttributeName, if_neg solid]
  -- The readers ask for the equals sign and for the slash in different orders.
  by_cases equals : c = '='
  · subst equals
    exact .once (shares.enter .beforeAttributeValue)
  rw [if_neg equals, if_neg equals]
  refine .ite (fun _ => .once (shares.enter .selfClosing)) fun _ => ?_
  refine .ite (fun _ => .once (shares.closeTag false)) fun _ => ?_
  exact .once (shares.enter (.attributeName (.first remains)))

theorem leads_beforeAttributeValue (shares : Shares bytes reader) (stands : StandsFor (.ofUInt8 b) c)
    (here : bytes.state = .beforeAttributeValue) (there : reader.state = .beforeAttributeValue) :
    Leads text i b c (reader.step c) (bytes.turnOn text i b c) := by
  rw [SegmentReader.step, there, ByteReader.turnOn, here]
  refine .ite (fun _ => .once ⟨shares, ?_⟩) fun _ => ?_
  · rw [here, there]
    exact .beforeAttributeValue
  refine .ite (fun quotes => ?_) fun _ => ?_
  · have plain : OneByte c := by obtain rfl | rfl := quotes <;> rfl
    obtain rfl : Char.ofUInt8 b = c := (stands.eq_iff plain).mpr rfl
    exact .once (shares.enter (.quotedValue plain))
  refine .ite (fun _ => .once (shares.closeTag false)) fun _ => ?_
  exact .once (shares.enter .unquotedValue)

theorem leads_quotedValue {quote : UInt8} {empty : Bool} (shares : Shares bytes reader)
    (stands : StandsFor (.ofUInt8 b) c) (plain : OneByte (.ofUInt8 quote))
    (here : bytes.state = .quotedValue quote empty)
    (there : reader.state = .quotedValue (.ofUInt8 quote) empty) :
    Leads text i b c (reader.step c) (bytes.turnOn text i b c) := by
  -- The quote is remembered as a byte and known to be of ASCII.
  have same : b = quote ↔ c = .ofUInt8 quote := by
    rw [← stands.eq_iff plain]
    exact ⟨congrArg _, ofUInt8_injective⟩
  rw [SegmentReader.step, there, ByteReader.turnOn, here]
  simp only [same]
  refine .ite (fun _ => .once (shares.enter .beforeAttributeName)) fun _ => ?_
  exact .once (shares.enter (.quotedValue plain))

theorem leads_unquotedValue (shares : Shares bytes reader) (here : bytes.state = .unquotedValue)
    (there : reader.state = .unquotedValue) :
    Leads text i b c (reader.step c) (bytes.turnOn text i b c) := by
  rw [SegmentReader.step, there, ByteReader.turnOn, here]
  refine .ite (fun _ => .once (shares.enter .beforeAttributeName)) fun _ => ?_
  refine .ite (fun _ => .once (shares.closeTag false)) fun _ => .once ⟨shares, ?_⟩
  rw [here, there]
  exact .unquotedValue

/-! ### Declarations and comments -/

theorem leads_declaration {dash : Bool} (shares : Shares bytes reader)
    (here : bytes.state = .declaration (if dash then 1 else 0))
    (there : reader.state = .declaration dash) :
    Leads text i b c (reader.step c) (bytes.turnOn text i b c) := by
  rw [SegmentReader.step, there, ByteReader.turnOn, here]
  refine .ite (fun _ => ?_) fun _ => ?_
  · cases dash with
    | false => exact .once (shares.enter (.declaration true))
    | true => exact .once (shares.enter (.comment (Nat.zero_le 2)))
  refine .ite (fun _ => .once (shares.enter .data)) fun _ => ?_
  exact .once (shares.enter .bogusComment)

theorem leads_comment {dashes : Nat} (shares : Shares bytes reader) (few : dashes ≤ 2)
    (here : bytes.state = .comment dashes) (there : reader.state = .comment dashes) :
    Leads text i b c (reader.step c) (bytes.turnOn text i b c) := by
  rw [SegmentReader.step, there, ByteReader.turnOn, here]
  dsimp only
  rw [increment_eq few]
  refine .ite (fun _ => .once (shares.enter (.comment (Nat.min_le_right ..)))) fun _ => ?_
  refine .ite (fun _ => .once (shares.enter .data)) fun _ => ?_
  exact .once (shares.enter (.comment (Nat.zero_le 2)))

theorem leads_bogusComment (shares : Shares bytes reader) (here : bytes.state = .bogusComment)
    (there : reader.state = .bogusComment) :
    Leads text i b c (reader.step c) (bytes.turnOn text i b c) := by
  rw [SegmentReader.step, there, ByteReader.turnOn, here]
  dsimp only
  by_cases closes : c = '>'
  · simp only [if_pos closes]
    exact .once (shares.enter .data)
  · simp only [if_neg closes]
    exact .once ⟨shares, by rw [here, there]; exact .bogusComment⟩

/-! ### All states -/

/-- The readers are together again behind the next character, outside of raw text. -/
theorem leads (tracks : Tracks text i bytes reader) (remains : Remains text i (c :: rest))
    (stands : StandsFor (.ofUInt8 b) c) (markup : bytes.state ≠ .rawText) :
    Leads text i b c (reader.step c) (bytes.turnOn text i b c) := by
  have shares := tracks.toShares
  have state := tracks.state
  generalize here : bytes.state = inBytes at state markup
  generalize there : reader.state = inChars at state
  cases state with
  | data =>
    rw [SegmentReader.step, there]
    exact leads_data shares here
  | tagOpen => exact leads_tagOpen shares remains here there
  | endTagOpen => exact leads_endTagOpen shares remains here there
  | tagName spells same => exact leads_tagName shares remains spells same here there
  | beforeAttributeName =>
    rw [SegmentReader.step, there]
    exact leads_beforeAttributeName shares remains here
  | attributeName spells => exact leads_attributeName shares remains spells here there
  | afterAttributeName => exact leads_afterAttributeName shares remains here there
  | beforeAttributeValue => exact leads_beforeAttributeValue shares stands here there
  | quotedValue plain => exact leads_quotedValue shares stands plain here there
  | unquotedValue => exact leads_unquotedValue shares here there
  | selfClosing => exact leads_selfClosing shares remains here there
  | declaration dash => exact leads_declaration shares here there
  | comment few => exact leads_comment shares few here there
  | bogusComment => exact leads_bogusComment shares here there
  | rawText => exact absurd rfl markup

end Tracks

end

/-! ## Bytes of characters outside of ASCII -/

/-- States in which the reader does not mind another byte of the same character. -/
def ReaderState.Settled : ReaderState → Prop
  | data | tagName _ _ | attributeName _ | quotedValue _ false | unquotedValue | comment 0
  | bogusComment => True
  | _ => False

section

variable {text : String} {i j : Nat} {b : UInt8} {c : Char} {rest : List Char} {bytes : ByteReader}
  {reader : SegmentReader}

theorem isBlank_of_wide (wide : ¬ OneByte c) : isBlank c = false := by
  rw [← Bool.not_eq_true]
  exact fun blank => wide (oneByte_of_isBlank blank)

theorem isAlpha_of_wide (wide : ¬ OneByte c) : c.isAlpha = false := by
  rw [← Bool.not_eq_true]
  exact fun letter => wide (oneByte_of_isAlpha letter)

theorem ne_of_wide (wide : ¬ OneByte c) {x : Char} (plain : OneByte x) : c ≠ x := by
  rintro rfl
  exact wide plain

/-- A character outside of ASCII is part of something, whatever the reader is in the middle of. -/
theorem settled_step (wide : ¬ OneByte c) (markup : ∀ missing, reader.state ≠ .rawText missing)
    (quotes : ∀ quote empty, reader.state = .quotedValue quote empty → OneByte quote) :
    (reader.step c).state.Settled := by
  have blank := isBlank_of_wide wide
  have letter := isAlpha_of_wide wide
  have other {x : Char} (plain : OneByte x) : c ≠ x := ne_of_wide wide plain
  unfold SegmentReader.step
  cases here : reader.state with
  | rawText missing => exact absurd here (markup missing)
  | quotedValue quote empty =>
    dsimp only
    rw [if_neg (other (quotes quote empty here))]
    trivial
  | _ =>
    simp (disch := decide) only [SegmentReader.stepData, SegmentReader.stepBeforeAttributeName,
      SegmentReader.enter, blank, letter, other, here, Bool.false_eq_true, ↓reduceIte, or_self,
      false_and]
    trivial

/-- The first byte of a character tells the reader of bytes all that it takes from the character. -/
theorem turnOn_settled (tracks : Tracks text j bytes reader) (settled : reader.state.Settled)
    (wide : ¬ OneByte (.ofUInt8 b)) : bytes.turnOn text i b (.ofUInt8 b) = .ok (bytes, i + 1) := by
  have blank := isBlank_of_wide wide
  have letter := isAlpha_of_wide wide
  have other {x : Char} (plain : OneByte x) : Char.ofUInt8 b ≠ x := ne_of_wide wide plain
  have state := tracks.state
  generalize there : reader.state = inChars at state settled
  generalize here : bytes.state = inBytes at state
  unfold ByteReader.turnOn
  rw [here]
  cases state with
  | data | tagName | attributeName | unquotedValue | bogusComment =>
    simp (disch := decide) only [blank, other, Bool.false_eq_true, ↓reduceIte]
  | @quotedValue quote empty plain =>
    have different : b ≠ quote := by
      rintro rfl
      exact wide plain
    cases empty with
    | true => cases settled
    | false => simp [different, ByteReader.enter, ← here]
  | @comment dashes few =>
    cases dashes with
    | zero =>
      simp (disch := decide) only [other, ↓reduceIte, reduceCtorEq, and_self, ByteReader.enter, ← here]
    | succ dashes => cases settled
  | _ => cases settled

/-- The other bytes of a character are passed over. -/
theorem readFrom_settled (tracks : Tracks text j bytes reader) (settled : reader.state.Settled)
    (remains : Remains text i (c :: rest)) (wide : ¬ OneByte c) :
    bytes.readFrom text (i + 1) = bytes.readFrom text (i + c.utf8Size) := by
  have going (count : Nat) (within : count < c.utf8Size) :
      bytes.readFrom text (i + 1) = bytes.readFrom text (i + (count + 1)) := by
    induction count with
    | zero => rfl
    | succ count ih =>
      obtain ⟨inside, foreign⟩ := remains.wide wide within
      rw [ih (Nat.lt_of_succ_lt within)]
      exact ByteReader.readFrom_turn (turnOn_settled tracks settled foreign)
  have := c.utf8Size_pos
  have whole := going (c.utf8Size - 1) (by omega)
  rwa [Nat.sub_add_cancel this] at whole

/-- Two turns at one byte are one after the other in the loop. -/
theorem Leads.readFrom {next : SegmentReader} {inside : i < text.utf8ByteSize}
    (stands : StandsFor (.ofUInt8 (byteAt text i inside)) c)
    (leads : Leads text i (byteAt text i inside) c next
      (bytes.turnOn text i (byteAt text i inside) c)) :
    ∃ after, bytes.readFrom text i = after.readFrom text (i + 1) ∧
      Tracks text (i + c.utf8Size) after next := by
  generalize turned : bytes.turnOn text i (byteAt text i inside) c = result at leads
  have turn {bytes : ByteReader} {result : Except ByteFault (ByteReader × Nat)}
      (turned : bytes.turnOn text i (byteAt text i inside) c = result) :
      bytes.turn text i inside = result :=
    (ByteReader.turnOn_stands stands bytes text i _).trans turned
  induction leads generalizing bytes with
  | once tracks => exact ⟨_, ByteReader.readFrom_turn (turn turned), tracks⟩
  | again leads ih =>
    obtain ⟨after, same, tracks⟩ := ih rfl
    exact ⟨after, (ByteReader.readFrom_turn (turn turned)).trans same, tracks⟩

/-- A whole character, outside of raw text. -/
theorem Tracks.readChar (tracks : Tracks text i bytes reader)
    (remains : Remains text i (c :: rest)) (markup : bytes.state ≠ .rawText) :
    ∃ after, bytes.readFrom text i = after.readFrom text (i + c.utf8Size) ∧
      Tracks text (i + c.utf8Size) after (reader.step c) := by
  obtain ⟨inside, stands⟩ := remains.stands
  obtain ⟨after, same, tracks'⟩ := (tracks.leads remains stands markup).readFrom stands
  refine ⟨after, same.trans ?_, tracks'⟩
  have state := tracks.state
  generalize here : bytes.state = inBytes at state
  by_cases plain : OneByte c
  · rw [show c.utf8Size = 1 from plain]
  · refine readFrom_settled tracks' (settled_step plain ?_ ?_) remains plain
    · intro missing there
      rw [there] at state
      cases state
      exact markup here
    · intro quote empty there
      rw [there] at state
      cases state with
      | quotedValue plain => exact plain

/-! ## Raw text -/

/-- The letters of a name that has just been found are read without a look at them. -/
theorem readFrom_letters {closing : Bool} {start : Nat} {name back : List Char}
    (letters : ∀ c ∈ name, c.isAlpha = true) (here : bytes.state = .tagName closing start)
    (remains : Remains text i (name ++ back)) :
    bytes.readFrom text i = bytes.readFrom text (i + (String.ofList name).utf8ByteSize) := by
  induction name generalizing i with
  | nil => rfl
  | cons c name ih =>
    have letter := letters c List.mem_cons_self
    have single : c.utf8Size = 1 := oneByte_of_isAlpha letter
    obtain ⟨inside, stands⟩ := remains.stands
    have turned : bytes.turn text i inside = .ok (bytes, i + 1) := by
      refine (ByteReader.turnOn_stands stands bytes text i _).trans ?_
      have goesOn := endsWord_of_isAlpha letter
      simp only [LexerState.endsWord, Bool.or_eq_false_iff, beq_eq_false_iff_ne] at goesOn
      obtain ⟨⟨solid, notSlash⟩, notOver⟩ := goesOn
      simp [ByteReader.turnOn, here, solid, notSlash, notOver]
    have later := ih (fun d member => letters d (List.mem_cons_of_mem c member)) remains.next
    rw [ByteReader.readFrom_turn turned, utf8ByteSize_cons, ← Nat.add_assoc, ← later, single]

/-- Either the reader of bytes comes to the name in the next end tag, or to the end of the text. -/
theorem Tracks.readRawText (tracks : Tracks text i bytes reader)
    (remains : Remains text i rest) (raw : bytes.state = .rawText) :
    (∃ after next j back, bytes.readFrom text i = after.readFrom text j ∧ Tracks text j after next ∧
      Remains text j back ∧ back.length < rest.length ∧ next.feed back = reader.feed rest) ∨
    bytes.readFrom text i = .ok bytes ∧ Tracks text text.utf8ByteSize bytes (reader.feed rest) := by
  have shares := tracks.toShares
  have state := tracks.state
  rw [raw] at state
  generalize there : reader.state = inChars at state
  cases state with
  | @rawText missing listed waits =>
  by_cases inside : i < text.utf8ByteSize
  · -- At a byte of the text, raw text waits for an end tag from its first character on.
    have waiting : reader.waiting = reader := by
      obtain whole | past := waits
      · unfold SegmentReader.waiting SegmentReader.enter
        rw [← whole, ← there]
      · exact absurd past (Nat.ne_of_lt inside)
    have turned : bytes.turn text i inside = bytes.skipRawText text i := by
      rw [ByteReader.turn, ByteReader.turnOn, raw]
    have cut := (Spells.of_remains remains).cut
    rw [ByteReader.skipRawText, cut, Except.map, toList_lowerCase, shares.tag] at turned
    have sought := SegmentReader.feed_waiting listed rest
    generalize offset? (SegmentReader.endTagStart reader.tag) (rest.map Char.toLower) = offset
      at sought turned
    cases sought with
    | @found front name back split spelled leaves =>
      subst split
      rw [waiting] at leaves
      have found := remains.endTag
      -- The name that is found consists of letters, since the name of an element with raw text
      -- does.
      have letters : ∀ c ∈ name, c.isAlpha = true := by
        intro c member
        refine isAlpha_of_toLower (isAlpha_of_listed listed _ ?_)
        rw [← spelled]
        exact List.mem_map_of_mem member
      have small : name.map Char.toLower =
          reader.tag.toList.reverse.reverse.map Char.toLower := by
        rw [List.reverse_reverse, ← spelled, List.map_map]
        exact List.map_congr_left fun c _ => (toLower_toLower c).symm
      refine .inl ⟨_, reader.leaving, _, back, ?_, shares.enter (.tagName ⟨back, found, rfl⟩ small),
        found.skip, ?_, leaves.symm⟩
      · rw [ByteReader.readFrom_turn turned]
        exact readFrom_letters letters rfl found
      · simp only [List.length_append, List.length_cons]
        omega
    | nowhere waits =>
      rw [waiting] at waits
      obtain ⟨left, waits⟩ := waits
      rw [ByteReader.readFrom_turn turned, ByteReader.readFrom_end _ (Nat.le_refl _), waits]
      exact .inr ⟨rfl, shares.stay (by rw [raw]; exact .rawText listed (.inr rfl))⟩
  · have past := Nat.not_lt.mp inside
    obtain rfl := remains.eq_nil past
    refine .inr ⟨ByteReader.readFrom_end _ past, ?_⟩
    rw [← remains.of_end]
    exact tracks

end

/-- The reader of bytes goes along with the segment reader up to the end of the text. -/
theorem Tracks.readFrom {text : String} {i : Nat} {bytes : ByteReader} {reader : SegmentReader}
    {rest : List Char} (tracks : Tracks text i bytes reader) (remains : Remains text i rest) :
    ∃ after, bytes.readFrom text i = .ok after ∧
      Tracks text text.utf8ByteSize after (reader.feed rest) := by
  -- By how much is left, since an end tag in raw text is not come to character by character.
  induction left : rest.length using Nat.strong_induction_on generalizing i bytes reader rest with
  | _ size ih =>
  subst left
  by_cases raw : bytes.state = .rawText
  · obtain ⟨after, next, j, back, same, tracks', remains', shorter, fed⟩ | ⟨same, ends⟩ :=
      tracks.readRawText remains raw
    · rw [same, ← fed]
      exact ih _ shorter tracks' remains' rfl
    · exact ⟨bytes, same, ends⟩
  · cases rest with
    | nil =>
      rw [← remains.of_end]
      exact ⟨bytes, ByteReader.readFrom_end _ (Nat.le_of_eq remains.of_end.symm), tracks⟩
    | cons c rest =>
      obtain ⟨after, same, tracks'⟩ := tracks.readChar remains raw
      have further := ih _ (Nat.lt_succ_self _) tracks' remains.next rfl
      rw [same]
      exact further

/-! ## Between segments -/

theorem firstByte?_of_nil {text : String} (empty : text.toList = []) : firstByte? text = none := by
  rw [String.toList_eq_nil_iff] at empty
  rw [empty]
  rfl

theorem firstByte?_of_cons {text : String} {c : Char} {rest : List Char}
    (begins : text.toList = c :: rest) : ∃ b, firstByte? text = some b ∧ StandsFor (.ofUInt8 b) c := by
  have remains := Remains.start text
  rw [begins] at remains
  obtain ⟨inside, stands⟩ := remains.stands
  exact ⟨_, Array.getElem?_eq_getElem inside, stands⟩

/-- Where the next segment begins is known from its first byte. -/
theorem endsUnquoted_eq (next : String) (last : Bool) :
    SegmentReader.endsUnquoted next.toList last =
      (firstByte? next).elim last fun b => isBlank (.ofUInt8 b) || .ofUInt8 b == '>' := by
  cases begins : next.toList with
  | nil =>
    rw [firstByte?_of_nil begins]
    rfl
  | cons c rest =>
    obtain ⟨b, first, stands⟩ := firstByte?_of_cons begins
    have closes : (Char.ofUInt8 b == '>') = (c == '>') := by
      rw [Bool.eq_iff_iff, beq_iff_eq, beq_iff_eq]
      exact stands.eq_iff rfl
    rw [first, SegmentReader.endsUnquoted, Option.elim_some, stands.isBlank, closes]

theorem head?_eq_iff {next : String} {quote : UInt8} (plain : OneByte (.ofUInt8 quote)) :
    next.toList.head? = some (.ofUInt8 quote) ↔ firstByte? next = some quote := by
  cases begins : next.toList with
  | nil => simp [firstByte?_of_nil begins]
  | cons c rest =>
    obtain ⟨b, first, stands⟩ := firstByte?_of_cons begins
    rw [first, List.head?_cons, Option.some_inj, Option.some_inj, ← stands.eq_iff plain]
    exact ⟨ofUInt8_injective, congrArg _⟩

/-- What the two readers make of a value.  Behind it they are together in any text. -/
inductive PlacedAlike : Except Misplacement (Position × ByteReader) →
    Except Misplacement (Position × SegmentReader) → Prop where
  | misplaced (place : Misplacement) : PlacedAlike (.error place) (.error place)
  | ok {position : Position} {bytes : ByteReader} {reader : SegmentReader}
      (tracks : ∀ text i, Tracks text i bytes reader) :
      PlacedAlike (.ok (position, bytes)) (.ok (position, reader))

theorem Tracks.place {text : String} {i : Nat} {bytes : ByteReader} {reader : SegmentReader}
    (tracks : Tracks text i bytes reader) (next : String) (last : Bool) :
    PlacedAlike (bytes.place next last) (reader.place next.toList last) := by
  have shares := tracks.toShares
  have state := tracks.state
  generalize here : bytes.state = inBytes at state
  generalize there : reader.state = inChars at state
  rw [ByteReader.place, SegmentReader.place, here, there]
  cases state with
  | data => exact .ok fun _ _ => ⟨shares, by rw [here, there]; exact .data⟩
  | beforeAttributeValue =>
    dsimp only
    rw [shares.lastAttribute, endsUnquoted_eq]
    split
    · exact .ok fun _ _ => shares.enter .unquotedValue
    · exact .misplaced _
  | @quotedValue quote empty plain =>
    dsimp only
    rw [shares.lastAttribute]
    simp only [head?_eq_iff plain]
    split
    · exact .ok fun _ _ => shares.enter (.quotedValue plain)
    · exact .misplaced _
  | unquotedValue =>
    rw [shares.lastAttribute]
    exact .misplaced _
  | rawText =>
    rw [shares.tag]
    exact .misplaced _
  | _ => exact .misplaced _

namespace ByteReader

theorem positionsFrom_eq {reader : ByteReader} {chars : SegmentReader}
    (tracks : ∀ text i, Tracks text i reader chars) (index : Nat) (segments : List String) :
    reader.positionsFrom index segments =
      .ok (chars.positionsFrom index (segments.map String.toList)) := by
  induction segments generalizing reader chars index with
  | nil => rfl
  | cons segment segments ih =>
    cases segments with
    | nil => rfl
    | cons next rest =>
      obtain ⟨read, fed, tracks'⟩ := (tracks segment 0).readFrom (.start segment)
      have placed := tracks'.place next rest.isEmpty
      have emptied : (rest.map String.toList).isEmpty = rest.isEmpty := List.isEmpty_map
      rw [positionsFrom, show reader.feed segment = .ok read from fed, List.map_cons, List.map_cons,
        SegmentReader.positionsFrom, emptied]
      dsimp only
      generalize read.place next rest.isEmpty = result at placed
      generalize (chars.feed segment.toList).place next.toList rest.isEmpty = other at placed
      cases placed with
      | misplaced place => rfl
      | ok further =>
        dsimp only
        rw [ih further]
        rfl

theorem tracks_start (text : String) (i : Nat) : Tracks text i start .start :=
  ⟨⟨rfl, rfl, rfl⟩, .data⟩

/-- The bytes of the segments are read without a fault, and the positions of the values are those that
reading the characters gives. -/
theorem positions_eq (segments : List String) :
    positions segments = .ok (LiveMarkup.positions segments) := by
  unfold positions LiveMarkup.positions
  simp only [List.map_eq_nil_iff, List.findIdx?_map]
  split
  · rfl
  · rw [positionsFrom_eq tracks_start]
    cases segments.findIdx? (Placeholder.occursIn ∘ String.toList) <;> rfl

end ByteReader

end LiveMarkup
