import LiveMarkup.Literal.SegmentReader

/-! # Reading the bytes of a segment

The segment reader goes from character to character and collects the letters of names.  A segment can
also be read where it lies: by an index into its bytes, with names remembered by the offset where they
begin and cut out of the segment when they are over.  Of raw text nothing is read at all, the next end
tag is looked up in the rest of the segment.

What reads like that can go wrong in ways that the segment reader cannot.  An offset may belong to
another segment or point into the middle of a character, and the loop may stay where it is.  A `ByteFault`
is what the first kind ends with.  Against the second kind `turn_progress` says that a turn of the loop
goes on to a later byte, or else takes it to a state with less patience for the same byte.

`ByteReader.positions` puts this in the place of `positions`. -/

namespace LiveMarkup

open Markup

/-! ## Bytes of texts -/

/-- The byte at an offset. -/
def byteAt (text : String) (i : Nat) (inside : i < text.utf8ByteSize) : UInt8 :=
  text.getUTF8Byte ⟨i⟩ inside

def firstByte? (text : String) : Option UInt8 :=
  text.toByteArray.data[0]?

/-- What reading bytes must not come to. -/
inductive ByteFault where
  /-- A text is to be cut at offsets that are not in order, not inside of it, or not between two
  characters. -/
  | cut (first last : Nat)
  /-- A count of dashes does not fit into a byte. -/
  | overflow
  deriving DecidableEq, Repr

/-- Whether a byte offset stands between two characters of a text, or at one of its ends. -/
def IsCut (text : String) (offset : Nat) : Prop :=
  (String.Pos.Raw.mk offset).IsValid text

instance (text : String) (offset : Nat) : Decidable (IsCut text offset) :=
  inferInstanceAs (Decidable ((String.Pos.Raw.mk offset).IsValid text))

theorem isValidUTF8_extract {text : String} {first last : Nat}
    (bounds : first ≤ last ∧ IsCut text first ∧ IsCut text last) :
    (text.toByteArray.extract first last).IsValidUTF8 :=
  (String.Pos.Raw.isValidUTF8_extract_iff ⟨first⟩ ⟨last⟩ bounds.1 bounds.2.2.le_rawEndPos).mpr
    (.inr bounds.2)

/-- The part of a text between two byte offsets. -/
def cut (text : String) (first last : Nat) : Except ByteFault String :=
  if bounds : first ≤ last ∧ IsCut text first ∧ IsCut text last then
    .ok (.ofByteArray (text.toByteArray.extract first last) (isValidUTF8_extract bounds))
  else .error (.cut first last)

/-- How many bytes of a text are in front of the first place where it goes on with what is sought. -/
def offset? (sought : List Char) : List Char → Option Nat
  | [] => if sought = [] then some 0 else none
  | c :: cs => if sought.isPrefixOf (c :: cs) then some 0 else (offset? sought cs).map (c.utf8Size + ·)

/-- One more, if a byte can hold it. -/
def increment (count : Nat) : Except ByteFault Nat :=
  if count < 255 then .ok (count + 1) else .error .overflow

theorem increment_eq {dashes : Nat} (few : dashes ≤ 2) : increment dashes = .ok (dashes + 1) :=
  if_pos (by omega)

/-! ## The reader -/

/-- What the reader of bytes is in the middle of.  Names are known by their first byte. -/
inductive ByteState where
  | data
  | tagOpen
  | endTagOpen
  | tagName (closing : Bool) (start : Nat)
  | beforeAttributeName
  | attributeName (start : Nat)
  | afterAttributeName
  | beforeAttributeValue
  | quotedValue (quote : UInt8) (empty : Bool)
  | unquotedValue
  | selfClosing
  | declaration (dashes : Nat)
  | comment (dashes : Nat)
  | bogusComment
  | rawText
  deriving DecidableEq, Repr

namespace ByteState

/-- The offset that a state remembers. -/
def start? : ByteState → Option Nat
  | tagName _ start | attributeName start => some start
  | _ => none

/-- How many turns of the loop can stay at one byte. -/
def patience : ByteState → Nat
  | tagOpen | selfClosing => 1
  | _ => 0

end ByteState

/-- The reader of bytes: its state, and what the segment reader knows besides. -/
structure ByteReader where
  state : ByteState
  tag : String
  closing : Bool
  lastAttribute : String
  deriving DecidableEq, Repr

namespace ByteReader

def start : ByteReader :=
  { state := .data, tag := "", closing := false, lastAttribute := "" }

def enter (reader : ByteReader) (state : ByteState) : ByteReader :=
  { reader with state }

/-- Ends a tag. -/
def closeTag (reader : ByteReader) (selfClosing : Bool) : ByteReader :=
  reader.enter
    (if !reader.closing && !selfClosing && rawTextElements.contains reader.tag then .rawText else .data)

/-- Ends a tag name. -/
def nameTag (reader : ByteReader) (closing : Bool) (name : String) : ByteReader :=
  { reader with tag := lowerCase name, closing }

/-- Ends an attribute name. -/
def nameAttribute (reader : ByteReader) (name : String) : ByteReader :=
  { reader with lastAttribute := name }

/-! ## One turn of the loop -/

/-- Looks up the end tag that raw text waits for from a byte on. -/
def skipRawText (reader : ByteReader) (text : String) (i : Nat) : Except ByteFault (ByteReader × Nat) :=
  (cut text i text.utf8ByteSize).map fun rest =>
    match offset? (SegmentReader.endTagStart reader.tag) (lowerCase rest).toList with
    | some offset => (reader.enter (.tagName true (i + offset + 2)), i + offset + 2)
    | none => (reader, text.utf8ByteSize)

/-- What the reader does at a byte, which is read as a character of its own: the reader behind it and
the byte to go on with.  This is the same one again if it is not part of what the reader has taken it
for. -/
def turnOn (reader : ByteReader) (text : String) (i : Nat) (b : UInt8) (c : Char) :
    Except ByteFault (ByteReader × Nat) :=
  match reader.state with
  | .data => .ok (if c = '<' then reader.enter .tagOpen else reader, i + 1)
  | .tagOpen =>
    if c = '!' then .ok (reader.enter (.declaration 0), i + 1)
    else if c = '/' then .ok (reader.enter .endTagOpen, i + 1)
    else if c = '?' then .ok (reader.enter .bogusComment, i + 1)
    else if c.isAlpha then .ok (reader.enter (.tagName false i), i + 1)
    else .ok (reader.enter .data, i)
  | .endTagOpen =>
    if c.isAlpha then .ok (reader.enter (.tagName true i), i + 1)
    else if c = '>' then .ok (reader.enter .data, i + 1)
    else .ok (reader.enter .bogusComment, i + 1)
  | .tagName closing start =>
    if isBlank c then
      (cut text start i).map fun name =>
        ((reader.nameTag closing name).enter .beforeAttributeName, i + 1)
    else if c = '/' then
      (cut text start i).map fun name => ((reader.nameTag closing name).enter .selfClosing, i + 1)
    else if c = '>' then
      (cut text start i).map fun name => ((reader.nameTag closing name).closeTag false, i + 1)
    else .ok (reader, i + 1)
  | .beforeAttributeName =>
    if isBlank c then .ok (reader, i + 1)
    else if c = '/' then .ok (reader.enter .selfClosing, i + 1)
    else if c = '>' then .ok (reader.closeTag false, i + 1)
    else .ok (reader.enter (.attributeName i), i + 1)
  | .attributeName start =>
    if isBlank c then
      (cut text start i).map fun name => ((reader.nameAttribute name).enter .afterAttributeName, i + 1)
    else if c = '/' then
      (cut text start i).map fun name => ((reader.nameAttribute name).enter .selfClosing, i + 1)
    else if c = '=' then
      (cut text start i).map fun name =>
        ((reader.nameAttribute name).enter .beforeAttributeValue, i + 1)
    else if c = '>' then
      (cut text start i).map fun name => ((reader.nameAttribute name).closeTag false, i + 1)
    else .ok (reader, i + 1)
  | .afterAttributeName =>
    if isBlank c then .ok (reader, i + 1)
    else if c = '/' then .ok (reader.enter .selfClosing, i + 1)
    else if c = '=' then .ok (reader.enter .beforeAttributeValue, i + 1)
    else if c = '>' then .ok (reader.closeTag false, i + 1)
    else .ok (reader.enter (.attributeName i), i + 1)
  | .beforeAttributeValue =>
    if isBlank c then .ok (reader, i + 1)
    else if c = '"' ∨ c = '\'' then .ok (reader.enter (.quotedValue b true), i + 1)
    else if c = '>' then .ok (reader.closeTag false, i + 1)
    else .ok (reader.enter .unquotedValue, i + 1)
  | .quotedValue quote _ =>
    if b = quote then .ok (reader.enter .beforeAttributeName, i + 1)
    else .ok (reader.enter (.quotedValue quote false), i + 1)
  | .unquotedValue =>
    if isBlank c then .ok (reader.enter .beforeAttributeName, i + 1)
    else if c = '>' then .ok (reader.closeTag false, i + 1)
    else .ok (reader, i + 1)
  | .selfClosing =>
    if c = '>' then .ok (reader.closeTag true, i + 1)
    else .ok (reader.enter .beforeAttributeName, i)
  | .declaration dashes =>
    if c = '-' then .ok (reader.enter (if dashes = 1 then .comment 0 else .declaration 1), i + 1)
    else if c = '>' then .ok (reader.enter .data, i + 1)
    else .ok (reader.enter .bogusComment, i + 1)
  | .comment dashes =>
    if c = '-' then
      (increment dashes).map fun count => (reader.enter (.comment (min count 2)), i + 1)
    else if c = '>' ∧ dashes = 2 then .ok (reader.enter .data, i + 1)
    else .ok (reader.enter (.comment 0), i + 1)
  | .bogusComment => .ok (if c = '>' then reader.enter .data else reader, i + 1)
  | .rawText => reader.skipRawText text i

/-- One turn of the loop.  A byte of a character outside of ASCII is read as a character that has no
meaning in markup. -/
def turn (reader : ByteReader) (text : String) (i : Nat) (inside : i < text.utf8ByteSize) :
    Except ByteFault (ByteReader × Nat) :=
  let b := byteAt text i inside
  reader.turnOn text i b (.ofUInt8 b)

theorem exists_of_map_eq_ok {ε α β : Type} {result : Except ε α} {f : α → β} {value : β}
    (mapped : result.map f = .ok value) : ∃ part, result = .ok part ∧ f part = value := by
  cases result with
  | error fault => cases mapped
  | ok part => exact ⟨part, rfl, Except.ok.inj mapped⟩

/-- A turn of the loop goes on to a later byte, or it loses patience. -/
theorem turn_progress {reader after : ByteReader} {text : String} {i next : Nat}
    {inside : i < text.utf8ByteSize} (turned : reader.turn text i inside = .ok (after, next)) :
    i < next ∨ next = i ∧ after.state.patience < reader.state.patience := by
  have later (other : ByteReader) (same : (other, i + 1) = (after, next)) : i < next := by
    obtain ⟨-, rfl⟩ := Prod.mk.inj same
    exact Nat.lt_succ_self i
  unfold turn turnOn at turned
  cases here : reader.state with
  | tagOpen =>
    rw [here] at turned
    dsimp only at turned
    repeat' split at turned
    all_goals first | exact .inl (later _ (Except.ok.inj turned)) | skip
    cases turned
    exact .inr ⟨rfl, Nat.zero_lt_one⟩
  | selfClosing =>
    rw [here] at turned
    dsimp only at turned
    split at turned
    · exact .inl (later _ (Except.ok.inj turned))
    · cases turned
      exact .inr ⟨rfl, Nat.zero_lt_one⟩
  | rawText =>
    rw [here] at turned
    obtain ⟨rest, -, found⟩ := exists_of_map_eq_ok turned
    split at found <;> cases found
    · exact .inl (by omega)
    · exact .inl inside
  | tagName | attributeName | comment =>
    rw [here] at turned
    dsimp only at turned
    repeat' split at turned
    all_goals
      first
      | exact .inl (later _ (Except.ok.inj turned))
      | obtain ⟨_, -, same⟩ := exists_of_map_eq_ok turned
        exact .inl (later _ same)
  | _ =>
    rw [here] at turned
    dsimp only at turned
    repeat' split at turned
    all_goals exact .inl (later _ (Except.ok.inj turned))

/-! ## Whole segments -/

/-- The loop from a byte of the text on. -/
def readFrom (reader : ByteReader) (text : String) (i : Nat) : Except ByteFault ByteReader :=
  if inside : i < text.utf8ByteSize then
    match _turned : reader.turn text i inside with
    | .error fault => .error fault
    | .ok (after, next) => after.readFrom text next
  else .ok reader
  termination_by (text.utf8ByteSize - i, reader.state.patience)
  decreasing_by
    obtain later | ⟨rfl, tired⟩ := turn_progress _turned
    · exact .left _ _ (by omega)
    · exact .right _ tired

theorem readFrom_end (reader : ByteReader) {text : String} {i : Nat}
    (past : text.utf8ByteSize ≤ i) : reader.readFrom text i = .ok reader := by
  rw [readFrom, dif_neg (Nat.not_lt.mpr past)]

theorem readFrom_turn {reader after : ByteReader} {text : String} {i next : Nat}
    {inside : i < text.utf8ByteSize} (turned : reader.turn text i inside = .ok (after, next)) :
    reader.readFrom text i = after.readFrom text next := by
  rw [readFrom, dif_pos inside]
  split
  · next fault failed =>
    rw [turned] at failed
    cases failed
  · next same =>
    rw [turned] at same
    cases same
    rfl

/-- The reader behind a whole segment. -/
def feed (reader : ByteReader) (segment : String) : Except ByteFault ByteReader :=
  reader.readFrom segment 0

/-! ## Between two segments -/

/-- The position of a value that stands between what was read and the segment `next`, and the reader
behind that value. -/
def place (reader : ByteReader) (next : String) (last : Bool) :
    Except Misplacement (Position × ByteReader) :=
  match reader.state with
  | .data => .ok (.child, reader)
  | .rawText => .error (.rawText reader.tag)
  | .tagOpen | .endTagOpen | .tagName _ _ => .error .tagName
  | .beforeAttributeName | .afterAttributeName | .selfClosing => .error .wholeAttribute
  | .attributeName _ => .error .attributeName
  | .declaration _ | .comment _ | .bogusComment => .error .comment
  | .beforeAttributeValue =>
    if (firstByte? next).elim last fun b => isBlank (.ofUInt8 b) || .ofUInt8 b == '>' then
      .ok (.attribute reader.lastAttribute, reader.enter .unquotedValue)
    else .error (.partialValue reader.lastAttribute)
  | .quotedValue quote empty =>
    if empty ∧ firstByte? next = some quote then
      .ok (.attribute reader.lastAttribute, reader.enter (.quotedValue quote false))
    else .error (.partialValue reader.lastAttribute)
  | .unquotedValue => .error (.partialValue reader.lastAttribute)

/-- The positions of the values between the given segments, the first of which has the given
index. -/
def positionsFrom (reader : ByteReader) (index : Nat) :
    List String → Except ByteFault (Except LiteralError (List Position))
  | segment :: next :: rest =>
    match reader.feed segment with
    | .error fault => .error fault
    | .ok read =>
      match read.place next rest.isEmpty with
      | .error place => .ok (.error (.misplaced index place))
      | .ok (position, after) =>
        (after.positionsFrom (index + 1) (next :: rest)).map (·.map (position :: ·))
  | _ => .ok (.ok [])

/-- The positions of the values of a literal, in order, if nothing goes wrong. -/
def positions (segments : List String) : Except ByteFault (Except LiteralError (List Position)) :=
  if segments = [] then .ok (.error .noSegments)
  else
    match segments.findIdx? (Placeholder.occursIn ∘ String.toList) with
    | some segment => .ok (.error (.reserved segment))
    | none => start.positionsFrom 0 segments

/-- The reader of bytes reads a segment, and behind it a value can stand. -/
def Crosses (reader : ByteReader) (segment next : String) (last : Bool) (after : ByteReader) : Prop :=
  ∃ read position, reader.feed segment = .ok read ∧ read.place next last = .ok (position, after)

end ByteReader

/-- The segment reader reads a segment, and behind it a value can stand. -/
def SegmentReader.Crosses (reader : SegmentReader) (segment next : List Char) (last : Bool)
    (after : SegmentReader) : Prop :=
  ∃ position, (reader.feed segment).place next last = .ok (position, after)

/-- A reader comes to the segment with the given index, which is not the last one: in front of it a
value can stand behind each segment. -/
inductive Arrives {Reader Text : Type} (Crosses : Reader → Text → Text → Bool → Reader → Prop) :
    Reader → List Text → Nat → Reader → Text → Prop where
  | now {reader : Reader} {segment next : Text} {rest : List Text} :
      Arrives Crosses reader (segment :: next :: rest) 0 reader segment
  | later {reader after there : Reader} {segment next target : Text} {rest : List Text}
      {index : Nat} (crosses : Crosses reader segment next rest.isEmpty after)
      (arrives : Arrives Crosses after (next :: rest) index there target) :
      Arrives Crosses reader (segment :: next :: rest) (index + 1) there target

end LiveMarkup
