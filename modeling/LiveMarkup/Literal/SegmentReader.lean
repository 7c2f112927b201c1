import LiveMarkup.Literal.Error
import LiveMarkup.Literal.Placeholder
import LiveMarkup.Markup.Vocabulary

/-! # Reading segments

Parsers change the spelling of attribute names and say nothing about where a text came from.  So the
position of each value is read off the segments themselves, by a small automaton that knows tags,
attributes, comments and raw text, one character at a time.  Between two segments it has to be in a
state where a value can stand; it then goes on as if it had read a placeholder there.

`positions` gives the position of every value of a literal, in order. -/

namespace LiveMarkup

open Markup

/-- What the automaton is in the middle of.  Names are collected with the last character first. -/
inductive ReaderState where
  | data
  | tagOpen
  | endTagOpen
  | tagName (closing : Bool) (name : List Char)
  | beforeAttributeName
  | attributeName (name : List Char)
  | afterAttributeName
  | beforeAttributeValue
  | quotedValue (quote : Char) (empty : Bool)
  | unquotedValue
  | selfClosing
  /-- Behind the start of a declaration, with or without one dash. -/
  | declaration (dash : Bool)
  /-- In a comment, behind the given number of dashes, of which two count at most. -/
  | comment (dashes : Nat)
  | bogusComment
  /-- In raw text, with this much of an end tag still to come. -/
  | rawText (missing : List Char)
  deriving DecidableEq, Repr

/-- The automaton: its state, the tag it read last, whether that is an end tag, and the attribute
name it read last. -/
structure SegmentReader where
  state : ReaderState
  tag : String
  closing : Bool
  lastAttribute : String
  deriving DecidableEq, Repr

namespace SegmentReader

def start : SegmentReader :=
  { state := .data, tag := "", closing := false, lastAttribute := "" }

/-! ## One character -/

/-- What raw text waits for: the start of its own end tag. -/
def endTagStart (tag : String) : List Char :=
  '<' :: '/' :: tag.toList

/-- Ends a tag.  A start tag of a raw text element is followed by raw text. -/
def closeTag (reader : SegmentReader) (selfClosing : Bool) : SegmentReader :=
  if !reader.closing && !selfClosing && rawTextElements.contains reader.tag then
    { reader with state := .rawText (endTagStart reader.tag) }
  else { reader with state := .data }

/-- Ends a tag name. -/
def nameTag (reader : SegmentReader) (closing : Bool) (name : List Char) : SegmentReader :=
  { reader with tag := lowerCase (String.ofList name.reverse), closing }

/-- Ends an attribute name. -/
def nameAttribute (reader : SegmentReader) (name : List Char) : SegmentReader :=
  { reader with lastAttribute := String.ofList name.reverse }

def enter (reader : SegmentReader) (state : ReaderState) : SegmentReader :=
  { reader with state }

/-- One character outside of any markup. -/
def stepData (reader : SegmentReader) (c : Char) : SegmentReader :=
  reader.enter (if c = '<' then .tagOpen else .data)

/-- One character where an attribute may begin. -/
def stepBeforeAttributeName (reader : SegmentReader) (c : Char) : SegmentReader :=
  if isBlank c then reader.enter .beforeAttributeName
  else if c = '/' then reader.enter .selfClosing
  else if c = '>' then reader.closeTag false
  else reader.enter (.attributeName [c])

/-- One character of raw text.  Only its first character is a less-than sign, so an end tag that
breaks off can begin anew only at the character that breaks it off. -/
def stepRawText (reader : SegmentReader) (missing : List Char) (c : Char) : SegmentReader :=
  match missing with
  | expected :: rest =>
    if c.toLower = expected then
      if rest = [] then reader.enter (.tagName true reader.tag.toList.reverse)
      else reader.enter (.rawText rest)
    else if c = '<' then reader.enter (.rawText (endTagStart reader.tag).tail)
    else reader.enter (.rawText (endTagStart reader.tag))
  | [] => reader.enter (.rawText (endTagStart reader.tag))

/-- The automaton after one more character. -/
def step (reader : SegmentReader) (c : Char) : SegmentReader :=
  match reader.state with
  | .data => reader.stepData c
  | .tagOpen =>
    if c = '!' then reader.enter (.declaration false)
    else if c = '/' then reader.enter .endTagOpen
    else if c = '?' then reader.enter .bogusComment
    else if c.isAlpha then reader.enter (.tagName false [c])
    else reader.stepData c
  | .endTagOpen =>
    if c.isAlpha then reader.enter (.tagName true [c])
    else if c = '>' then reader.enter .data
    else reader.enter .bogusComment
  | .tagName closing name =>
    if isBlank c then (reader.nameTag closing name).enter .beforeAttributeName
    else if c = '/' then (reader.nameTag closing name).enter .selfClosing
    else if c = '>' then (reader.nameTag closing name).closeTag false
    else reader.enter (.tagName closing (c :: name))
  | .beforeAttributeName => reader.stepBeforeAttributeName c
  | .attributeName name =>
    if isBlank c then (reader.nameAttribute name).enter .afterAttributeName
    else if c = '/' then (reader.nameAttribute name).enter .selfClosing
    else if c = '=' then (reader.nameAttribute name).enter .beforeAttributeValue
    else if c = '>' then (reader.nameAttribute name).closeTag false
    else reader.enter (.attributeName (c :: name))
  | .afterAttributeName =>
    if isBlank c then reader
    else if c = '=' then reader.enter .beforeAttributeValue
    else reader.stepBeforeAttributeName c
  | .beforeAttributeValue =>
    if isBlank c then reader
    else if c = '"' ∨ c = '\'' then reader.enter (.quotedValue c true)
    else if c = '>' then reader.closeTag false
    else reader.enter .unquotedValue
  | .quotedValue quote _ =>
    if c = quote then reader.enter .beforeAttributeName
    else reader.enter (.quotedValue quote false)
  | .unquotedValue =>
    if isBlank c then reader.enter .beforeAttributeName
    else if c = '>' then reader.closeTag false
    else reader
  | .selfClosing => if c = '>' then reader.closeTag true else reader.stepBeforeAttributeName c
  | .declaration dash =>
    if c = '-' then reader.enter (if dash then .comment 0 else .declaration true)
    else if c = '>' then reader.enter .data
    else reader.enter .bogusComment
  | .comment dashes =>
    if c = '-' then reader.enter (.comment (min (dashes + 1) 2))
    else if c = '>' ∧ dashes = 2 then reader.enter .data
    else reader.enter (.comment 0)
  | .bogusComment => if c = '>' then reader.enter .data else reader
  | .rawText missing => reader.stepRawText missing c

/-- The automaton after a whole text. -/
def feed (reader : SegmentReader) (text : List Char) : SegmentReader :=
  text.foldl step reader

/-! ## Between two segments -/

/-- Whether an unquoted value ends right here: at a blank, at the end of the tag, or at the end of
the literal.  A slash would still belong to the value. -/
def endsUnquoted (next : List Char) (last : Bool) : Bool :=
  match next with
  | c :: _ => isBlank c || c == '>'
  | [] => last

/-- The position of a value that stands between what was read and the segment `next`, and the
automaton behind that value. -/
def place (reader : SegmentReader) (next : List Char) (last : Bool) :
    Except Misplacement (Position × SegmentReader) :=
  match reader.state with
  | .data => .ok (.child, reader)
  | .rawText _ => .error (.rawText reader.tag)
  | .tagOpen | .endTagOpen | .tagName _ _ => .error .tagName
  | .beforeAttributeName | .afterAttributeName | .selfClosing => .error .wholeAttribute
  | .attributeName _ => .error .attributeName
  | .declaration _ | .comment _ | .bogusComment => .error .comment
  | .beforeAttributeValue =>
    if endsUnquoted next last then .ok (.attribute reader.lastAttribute, reader.enter .unquotedValue)
    else .error (.partialValue reader.lastAttribute)
  | .quotedValue quote empty =>
    if empty ∧ next.head? = some quote then
      .ok (.attribute reader.lastAttribute, reader.enter (.quotedValue quote false))
    else .error (.partialValue reader.lastAttribute)
  | .unquotedValue => .error (.partialValue reader.lastAttribute)

/-- The positions of the values between the given segments, the first of which has the given
index. -/
def positionsFrom (reader : SegmentReader) (index : Nat) :
    List (List Char) → Except LiteralError (List Position)
  | segment :: next :: rest =>
    match (reader.feed segment).place next rest.isEmpty with
    | .error place => .error (.misplaced index place)
    | .ok (position, reader) =>
      (reader.positionsFrom (index + 1) (next :: rest)).map (position :: ·)
  | _ => .ok []

end SegmentReader

/-- The positions of the values of a literal, in order. -/
def positions (segments : List String) : Except LiteralError (List Position) :=
  let segments := segments.map String.toList
  if segments = [] then .error .noSegments
  else
    match segments.findIdx? Placeholder.occursIn with
    | some segment => .error (.reserved segment)
    | none => SegmentReader.start.positionsFrom 0 segments

end LiveMarkup
