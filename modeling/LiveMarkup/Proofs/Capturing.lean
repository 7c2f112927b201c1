import LiveMarkup.Proofs.Lockstep.Segments

/-! # Where attribute names come from

The name that is given for the position of a value is written in the segment in front of the value, as a
whole, and nothing but the equals sign, blanks and a quote comes between the name and the value
(`positions_capture_names`).

The reader keeps the name while it goes on to other segments.  What makes sure that it is never that of
an earlier attribute is `Spelled`: it says of each state what the segment that is being read ends with.
Between two segments the reader is only in states of which it says nothing, or that a quote is one. -/

namespace LiveMarkup

open Markup

/-! ## Names in a text -/

/-- A character that the name of an attribute can come right behind. -/
def precedesName (c : Char) : Bool :=
  isBlank c || c == '/' || c == '"' || c == '\''

/-- A text ends where the name of an attribute can begin. -/
def Parted (text : List Char) : Prop :=
  ∃ before c, precedesName c = true ∧ text = before ++ [c]

/-- What the name of an attribute is spelled with.  It may begin with an equals sign. -/
structure RawName (name : List Char) : Prop where
  filled : name ≠ []
  plain : ∀ c ∈ name, isBlank c = false ∧ c ≠ '/' ∧ c ≠ '>'
  equals : '=' ∉ name.tail

/-- A text ends with a whole name and what follows it. -/
structure EndsWithName (text name behind : List Char) : Prop where
  named : RawName name
  parted : ∃ before, Parted before ∧ text = before ++ name ++ behind

theorem Parted.of_precedesName {c : Char} (ends : precedesName c = true) (text : List Char) :
    Parted (text ++ [c]) :=
  ⟨text, c, ends, rfl⟩

theorem precedesName_of_isBlank {c : Char} (blank : isBlank c = true) : precedesName c = true := by
  simp [precedesName, blank]

theorem EndsWithName.more {text name behind : List Char} (ends : EndsWithName text name behind)
    (c : Char) : EndsWithName (text ++ [c]) name (behind ++ [c]) := by
  obtain ⟨named, before, parted, rfl⟩ := ends
  exact ⟨named, before, parted, by simp⟩

/-- A name begins. -/
theorem EndsWithName.first {text : List Char} {c : Char} (parted : Parted text)
    (plain : isBlank c = false ∧ c ≠ '/' ∧ c ≠ '>') : EndsWithName (text ++ [c]) [c] [] :=
  ⟨⟨by simp, by simpa using plain, by simp⟩, text, parted, by simp⟩

/-- A name goes on. -/
theorem EndsWithName.letter {text name : List Char} (ends : EndsWithName text name []) {c : Char}
    (plain : isBlank c = false ∧ c ≠ '/' ∧ c ≠ '>') (other : c ≠ '=') :
    EndsWithName (text ++ [c]) (name ++ [c]) [] := by
  obtain ⟨⟨filled, all, equals⟩, before, parted, rfl⟩ := ends
  refine ⟨⟨by simp, ?_, ?_⟩, before, parted, by simp⟩
  · intro d member
    obtain member | rfl := by simpa using member
    · exact all d member
    · exact plain
  · rw [List.tail_append_of_ne_nil filled]
    simp [equals, other.symm]

/-- The name that the reader has been reading is over. -/
theorem EndsWithName.nameAttribute {text name behind : List Char}
    (ends : EndsWithName text name.reverse behind) (reader : SegmentReader) :
    EndsWithName text (reader.nameAttribute name).lastAttribute.toList behind := by
  rwa [SegmentReader.nameAttribute, String.toList_ofList]

/-! ## What a segment ends with -/

namespace SegmentReader

variable {reader : SegmentReader} {text : List Char} {c : Char}

/-- What comes between a name and its value: an equals sign among blanks, and perhaps a quote. -/
def Assigns (behind quote : List Char) : Prop :=
  ∃ blanks blanks', (∀ c ∈ blanks ++ blanks', isBlank c = true) ∧
    behind = blanks ++ ['='] ++ blanks' ++ quote

/-- What a segment ends with of which the reader has read the given text so far. -/
def Spelled (text : List Char) (reader : SegmentReader) : Prop :=
  match reader.state with
  | .beforeAttributeName | .selfClosing => Parted text
  | .attributeName name => EndsWithName text name.reverse []
  | .afterAttributeName => Parted text ∧ ∃ blanks, (∀ c ∈ blanks, isBlank c = true) ∧
      EndsWithName text reader.lastAttribute.toList blanks
  | .beforeAttributeValue => ∃ behind, Assigns behind [] ∧
      EndsWithName text reader.lastAttribute.toList behind
  | .quotedValue quote empty => (quote = '"' ∨ quote = '\'') ∧ (empty = true →
      ∃ behind, Assigns behind [quote] ∧ EndsWithName text reader.lastAttribute.toList behind)
  | _ => True

theorem spelled_closeTag (text : List Char) (reader : SegmentReader) (selfClosing : Bool) :
    Spelled text (reader.closeTag selfClosing) := by
  unfold closeTag
  split <;> trivial

theorem spelled_stepRawText (text : List Char) (reader : SegmentReader) (missing : List Char)
    (c : Char) : Spelled text (reader.stepRawText missing c) := by
  unfold stepRawText
  repeat' split
  all_goals trivial

theorem spelled_stepBeforeAttributeName (parted : Parted text) (reader : SegmentReader) (c : Char) :
    Spelled (text ++ [c]) (reader.stepBeforeAttributeName c) := by
  unfold stepBeforeAttributeName
  split
  · next blank => exact .of_precedesName (precedesName_of_isBlank blank) text
  next solid =>
  split
  · next slash => exact .of_precedesName (by rw [slash]; rfl) text
  next other =>
  split
  · exact spelled_closeTag ..
  · next open' => exact EndsWithName.first parted ⟨by simpa using solid, other, open'⟩

theorem spelled_stepData (text : List Char) (reader : SegmentReader) (c : Char) :
    Spelled text (reader.stepData c) := by
  unfold stepData
  split <;> trivial

theorem spelled_stepTagName {closing : Bool} {name : List Char}
    (here : reader.state = .tagName closing name) (text : List Char) (c : Char) :
    Spelled (text ++ [c]) (reader.step c) := by
  rw [step, here]
  dsimp only
  split
  · next blank => exact .of_precedesName (precedesName_of_isBlank blank) text
  split
  · next slash => exact .of_precedesName (by rw [slash]; rfl) text
  split
  · exact spelled_closeTag ..
  · trivial

/-- Only here a name is given over, and the segment ends with it when it is. -/
theorem spelled_stepAttributeName {name : List Char} (here : reader.state = .attributeName name)
    (ends : EndsWithName text name.reverse []) (c : Char) :
    Spelled (text ++ [c]) (reader.step c) := by
  rw [step, here]
  dsimp only
  split
  · next blank =>
    refine ⟨.of_precedesName (precedesName_of_isBlank blank) text, [c], by simpa using blank, ?_⟩
    exact (ends.more c).nameAttribute reader
  next solid =>
  split
  · next slash => exact .of_precedesName (by rw [slash]; rfl) text
  next other =>
  split
  · next equals =>
    subst equals
    exact ⟨['='], ⟨[], [], by simp, rfl⟩, (ends.more '=').nameAttribute reader⟩
  next letter =>
  split
  · exact spelled_closeTag ..
  · next inside =>
    have grown := ends.letter ⟨by simpa using solid, other, inside⟩ letter
    rwa [← List.reverse_cons] at grown

/-- Without an equals sign the name is dropped, and another one can come right behind the blanks. -/
theorem spelled_stepAfterAttributeName (here : reader.state = .afterAttributeName)
    (parted : Parted text) {blanks : List Char} (allBlank : ∀ c ∈ blanks, isBlank c = true)
    (ends : EndsWithName text reader.lastAttribute.toList blanks) (c : Char) :
    Spelled (text ++ [c]) (reader.step c) := by
  rw [step, here]
  dsimp only
  split
  · next blank =>
    simp only [Spelled, here]
    refine ⟨.of_precedesName (precedesName_of_isBlank blank) text, blanks ++ [c], ?_, ends.more c⟩
    simpa [or_imp, forall_and, blank] using allBlank
  split
  · next equals =>
    subst equals
    exact ⟨blanks ++ ['='], ⟨blanks, [], by simpa using allBlank, by simp⟩, ends.more '='⟩
  · exact spelled_stepBeforeAttributeName parted reader c

theorem spelled_stepBeforeAttributeValue (here : reader.state = .beforeAttributeValue)
    {behind : List Char} (assigns : Assigns behind [])
    (ends : EndsWithName text reader.lastAttribute.toList behind) (c : Char) :
    Spelled (text ++ [c]) (reader.step c) := by
  obtain ⟨blanks, blanks', allBlank, same⟩ := assigns
  rw [step, here]
  dsimp only
  split
  · next blank =>
    simp only [Spelled, here]
    refine ⟨behind ++ [c], ⟨blanks, blanks' ++ [c], ?_, by simp [same]⟩, ends.more c⟩
    rw [← List.append_assoc]
    simpa [or_imp, forall_and, blank] using allBlank
  split
  · next quote =>
    exact ⟨quote, fun _ => ⟨behind ++ [c], ⟨blanks, blanks', allBlank, by simp [same]⟩,
      ends.more c⟩⟩
  split
  · exact spelled_closeTag ..
  · trivial

/-- From the first character of the value on, no other value can stand here. -/
theorem spelled_stepQuotedValue {quote : Char} {empty : Bool}
    (here : reader.state = .quotedValue quote empty) (quotes : quote = '"' ∨ quote = '\'')
    (text : List Char) (c : Char) : Spelled (text ++ [c]) (reader.step c) := by
  rw [step, here]
  dsimp only
  split
  · next ends =>
    refine .of_precedesName ?_ text
    obtain rfl | rfl := quotes <;> rw [ends] <;> rfl
  · refine ⟨quotes, fun empty => ?_⟩
    cases empty

/-- What a segment ends with, one character further on. -/
theorem Spelled.step (spelled : Spelled text reader) (c : Char) :
    Spelled (text ++ [c]) (reader.step c) := by
  unfold Spelled at spelled
  -- States with a promise about what has been read have a lemma of their own, the others promise
  -- nothing.
  cases here : reader.state with
  | data =>
    rw [SegmentReader.step, here]
    exact spelled_stepData ..
  | tagOpen =>
    rw [SegmentReader.step, here]
    dsimp only
    split
    · trivial
    split
    · trivial
    split
    · trivial
    split
    · trivial
    · exact spelled_stepData ..
  | endTagOpen | declaration | comment =>
    rw [SegmentReader.step, here]
    dsimp only
    repeat' split
    all_goals trivial
  | bogusComment =>
    rw [SegmentReader.step, here]
    dsimp only
    split
    · trivial
    · simp [Spelled, here]
  | tagName closing name => exact spelled_stepTagName here text c
  | beforeAttributeName =>
    rw [here] at spelled
    rw [SegmentReader.step, here]
    exact spelled_stepBeforeAttributeName spelled reader c
  | attributeName name =>
    rw [here] at spelled
    exact spelled_stepAttributeName here spelled c
  | afterAttributeName =>
    rw [here] at spelled
    obtain ⟨parted, blanks, allBlank, ends⟩ := spelled
    exact spelled_stepAfterAttributeName here parted allBlank ends c
  | beforeAttributeValue =>
    rw [here] at spelled
    obtain ⟨behind, assigns, ends⟩ := spelled
    exact spelled_stepBeforeAttributeValue here assigns ends c
  | quotedValue quote empty =>
    rw [here] at spelled
    exact spelled_stepQuotedValue here spelled.1 text c
  | unquotedValue =>
    rw [SegmentReader.step, here]
    dsimp only
    split
    · next blank => exact .of_precedesName (precedesName_of_isBlank blank) text
    split
    · exact spelled_closeTag ..
    · simp [Spelled, here]
  | selfClosing =>
    rw [here] at spelled
    rw [SegmentReader.step, here]
    dsimp only
    split
    · exact spelled_closeTag ..
    · exact spelled_stepBeforeAttributeName spelled reader c
  | rawText missing =>
    rw [SegmentReader.step, here]
    exact spelled_stepRawText ..

theorem Spelled.feed (spelled : Spelled text reader) (more : List Char) :
    Spelled (text ++ more) (reader.feed more) := by
  induction more generalizing text reader with
  | nil => simpa [SegmentReader.feed] using spelled
  | cons c more ih =>
    rw [List.append_cons]
    exact ih (spelled.step c)

/-! ## Between segments -/

/-- How a value ends at the segment behind it, given the quote that it begins with, if there is one. -/
inductive Ended (next : List Char) (last : Prop) : List Char → Prop where
  | quoted {quote : Char} (quotes : quote = '"' ∨ quote = '\'') (ends : next.head? = some quote) :
      Ended next last [quote]
  | unquoted {c : Char} (ends : next.head? = some c) (stops : isBlank c = true ∨ c = '>') :
      Ended next last []
  | final (empty : next = []) (holds : last) : Ended next last []

theorem ended_of_endsUnquoted {next : List Char} {last : Bool}
    (ends : endsUnquoted next last = true) : Ended next (last = true) [] := by
  cases next with
  | nil => exact .final rfl ends
  | cons c next => exact .unquoted rfl (by simpa [endsUnquoted] using ends)

/-- The value of an attribute of the given name stands between two segments. -/
def Captures (segment next : List Char) (last : Prop) (name : List Char) : Prop :=
  ∃ behind quote, Assigns behind quote ∧ EndsWithName segment name behind ∧ Ended next last quote

/-- Where a value can stand, the name is that of the attribute it is the value of, and the reader goes
on with a segment of which it has not read anything. -/
theorem Spelled.place (spelled : Spelled text reader) {after : SegmentReader} {next : List Char}
    {last : Bool} {position : Position} (placed : reader.place next last = .ok (position, after)) :
    Spelled [] after ∧ ∀ name, position = .attribute name →
      Captures text next (last = true) name.toList := by
  -- The states in which a value can stand are text, before a value, and a quote just opened.
  have ends := placed
  unfold Spelled at spelled
  obtain ⟨here, rfl, rfl⟩ | ⟨here, rfl, rfl⟩ | ⟨quote, here, rfl, rfl⟩ := place_eq_ok placed
  · exact ⟨by simp [Spelled, here], nofun⟩
  · rw [here] at spelled
    obtain ⟨behind, assigns, named⟩ := spelled
    refine ⟨trivial, ?_⟩
    rintro _ ⟨⟩
    rw [SegmentReader.place, here] at ends
    dsimp only at ends
    split at ends
    · next stops => exact ⟨behind, [], assigns, named, ended_of_endsUnquoted stops⟩
    · cases ends
  · rw [here] at spelled
    obtain ⟨quotes, captured⟩ := spelled
    obtain ⟨behind, assigns, named⟩ := captured rfl
    refine ⟨⟨quotes, nofun⟩, ?_⟩
    rintro _ ⟨⟩
    rw [SegmentReader.place, here] at ends
    dsimp only at ends
    split at ends
    · next stops => exact ⟨behind, [quote], assigns, named, .quoted quotes stops.2⟩
    · cases ends

/-- The names of all positions, by induction on the segments. -/
theorem Spelled.positionsFrom (spelled : Spelled [] reader) {index : Nat}
    {segments : List (List Char)} {places : List Position}
    (read : reader.positionsFrom index segments = .ok places) {number : Nat} {name : String}
    (stands : places[number]? = some (.attribute name)) :
    ∃ segment next, segments[number]? = some segment ∧ segments[number + 1]? = some next ∧
      Captures segment next (number + 2 = segments.length) name.toList := by
  induction segments generalizing reader index places number with
  | nil =>
    cases read
    cases stands
  | cons segment segments ih =>
    cases segments with
    | nil =>
      cases read
      cases stands
    | cons next rest =>
      unfold SegmentReader.positionsFrom at read
      split at read
      · cases read
      next position after placed =>
      obtain ⟨fresh, captures⟩ := (spelled.feed segment).place placed
      cases later : after.positionsFrom (index + 1) (next :: rest) with
      | error error => simp [later, Except.map] at read
      | ok more =>
        simp only [later, Except.map] at read
        cases read
        cases number with
        | zero =>
          obtain ⟨behind, quote, assigns, named, ended⟩ := captures name (Option.some.inj stands)
          -- Only the last segment may end a value by having nothing in it.
          have final : rest.isEmpty = true ↔ 0 + 2 = (segment :: next :: rest).length := by
            rw [List.isEmpty_iff_length_eq_zero, List.length_cons, List.length_cons]
            omega
          rw [propext final] at ended
          exact ⟨segment, next, rfl, rfl, behind, quote, assigns, named, ended⟩
        | succ number =>
          obtain ⟨front, behind, first, second, captured⟩ := ih fresh later stands
          exact ⟨front, behind, first, second, by simpa using captured⟩

end SegmentReader

/-- A value that stands for an attribute has the whole name of the attribute in the segment in front of
it, with nothing but an equals sign, blanks and a quote between them, and it ends where the next
segment begins. -/
theorem positions_capture_names {segments : List String} {places : List Position}
    (read : positions segments = .ok places) {index : Nat} {rawName : String}
    (stands : places[index]? = some (.attribute rawName)) :
    ∃ segment next, segments[index]? = some segment ∧ segments[index + 1]? = some next ∧
      RawName rawName.toList ∧ ∃ before blanks blanks' quote, Parted before ∧
        (∀ c ∈ blanks ++ blanks', isBlank c = true) ∧
        segment.toList = before ++ rawName.toList ++ (blanks ++ ['='] ++ blanks' ++ quote) ∧
        SegmentReader.Ended next.toList (index + 2 = segments.length) quote := by
  unfold positions at read
  simp only at read
  split at read
  · cases read
  split at read
  · cases read
  have start : SegmentReader.start.Spelled [] := trivial
  obtain ⟨_, _, first, second, _, quote, ⟨blanks, blanks', allBlank, rfl⟩, ⟨named, ends⟩, ended⟩ :=
    start.positionsFrom read stands
  obtain ⟨before, parted, spelled⟩ := ends
  rw [List.getElem?_map, Option.map_eq_some_iff] at first second
  obtain ⟨segment, front, rfl⟩ := first
  obtain ⟨next, behind, rfl⟩ := second
  rw [List.length_map] at ended
  exact ⟨segment, next, front, behind, named, before, blanks, blanks', quote, parted, allBlank,
    spelled, ended⟩

/-- A quoted value in one tag, with a segment that goes on to a second attribute of it, and a value
without quotes at the end of a literal. -/
theorem positions_capture_names_persistent :
    let segments := ["<p a='1' B = \"", "\"/=c=", ""]
    positions segments = .ok [.attribute "B", .attribute "=c"] ∧
      ∃ segment next, segments[1]? = some segment ∧ segments[1 + 1]? = some next ∧
        RawName "=c".toList ∧ ∃ before blanks blanks' quote, Parted before ∧
          (∀ c ∈ blanks ++ blanks', isBlank c = true) ∧
          segment.toList = before ++ "=c".toList ++ (blanks ++ ['='] ++ blanks' ++ quote) ∧
          SegmentReader.Ended next.toList (1 + 2 = segments.length) quote := by
  intro segments
  have read : positions segments = .ok [.attribute "B", .attribute "=c"] := by decide +kernel
  exact ⟨read, positions_capture_names read rfl⟩

end LiveMarkup
