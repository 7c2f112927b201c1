import LiveMarkup.Proofs.Lockstep.Segments

/-! # Two readers of one attribute

In step, the segment reader and the lexer also spell the name of an attribute alike, up to the case of
letters, and they agree on whether anything of its value has been read (`Agree.step`).

Only the lexer replaces the character zero in a name.  Literals with such names are set apart, along
with those in which the lexer strays (`swerves`). -/

namespace LiveMarkup

open Markup SegmentReader

namespace Markup.LexerState

/-! ## Where the lexer goes its own way -/

/-- Whether the lexer replaces the character in the name of an attribute. -/
def replaces (state : LexerState) (c : Char) : Bool :=
  match state with
  | beforeAttributeName _ | attributeName _ | afterAttributeName _ | afterQuotedValue _
  | selfClosing _ => c == '\x00'
  | _ => false

/-- Whether the lexer takes a turn that a simple reader misses, or spells a name otherwise. -/
def swerves (state : LexerState) (c : Char) : Bool :=
  state.strays c || state.replaces c

def swervesIn (state : LexerState) : List Char → Bool
  | [] => false
  | c :: rest => state.swerves c || (state.step c).1.swervesIn rest

theorem swervesIn_append (state : LexerState) (text rest : List Char) :
    state.swervesIn (text ++ rest) =
      (state.swervesIn text || (state.advance text).1.swervesIn rest) := by
  induction text generalizing state with
  | nil => rfl
  | cons c text ih => rw [List.cons_append, swervesIn, swervesIn, ih, Bool.or_assoc]; rfl

theorem straysIn_of_swervesIn {state : LexerState} {text : List Char}
    (steady : state.swervesIn text = false) : state.straysIn text = false := by
  induction text generalizing state with
  | nil => rfl
  | cons c text ih =>
    simp only [swervesIn, swerves, Bool.or_eq_false_iff] at steady
    rw [straysIn, steady.1.1, ih steady.2, Bool.false_or]

theorem nameChar_of_ne_zero {c : Char} (other : c ≠ '\x00') : nameChar c = c.toLower :=
  if_neg fun zero => other (eq_of_toLower_eq zero rfl)

theorem isBare_closeTag (tag : OpenTag) (closed : Bool) :
    (closeTag tag closed).1.isBare = true := by
  unfold closeTag
  dsimp only
  split <;> rfl

theorem ne_zero_of_endsWord {c : Char} (ends : endsWord c = true) : c ≠ '\x00' := by
  rintro rfl
  cases ends

end Markup.LexerState

/-! ## What the readers agree on -/

/-- The reader has the name of the attribute, in letters of whatever case. -/
def SameName (reader : SegmentReader) (attr : OpenAttribute) : Prop :=
  attr.name.reverse = reader.lastAttribute.toList.map Char.toLower

theorem SameName.lowerCase_eq {reader : SegmentReader} {attr : OpenAttribute}
    (same : SameName reader attr) :
    lowerCase (String.ofList attr.name.reverse) = lowerCase reader.lastAttribute := by
  rw [same, ← String.toList_inj]
  simp [lowerCase, Function.comp_def]

/-- What the two readers agree on about the attribute that is being read. -/
def Agree (reader : SegmentReader) : LexerState → Prop
  | .attributeName attr => attr.value = [] ∧
      ∃ name, reader.state = .attributeName name ∧ attr.name = name.map Char.toLower
  | .afterAttributeName attr | .beforeAttributeValue attr =>
    attr.value = [] ∧ SameName reader attr
  | .quotedValue quote attr => SameName reader attr ∧
      ∃ empty, reader.state = .quotedValue quote empty ∧ (empty = true ↔ attr.value = [])
  | .valueReference (some quote) attr _ =>
    SameName reader attr ∧ reader.state = .quotedValue quote false
  | .unquotedValue attr => attr.value ≠ []
  | _ => True

namespace Agree

open LexerState

variable {reader : SegmentReader} {state : LexerState} {attr : OpenAttribute} {c : Char}

/-- Outside of tags there is nothing to agree on. -/
theorem of_isBare (bare : state.isBare = true) : Agree reader state := by
  cases state with
  | content | contentReference | lessThan | endTagOpen | rawEndTag | declaration | doctype =>
    trivial
  | _ => cases bare

theorem stepBeforeAttributeName (tag : OpenTag) (spelled : c ≠ '\x00') :
    Agree (reader.stepBeforeAttributeName c) (stepBeforeAttributeName tag c).1 := by
  unfold SegmentReader.stepBeforeAttributeName LexerState.stepBeforeAttributeName
  split
  · trivial
  split
  · trivial
  split
  · exact of_isBare (isBare_closeTag tag false)
  · exact ⟨rfl, [c], rfl, by simp [nameChar_of_ne_zero spelled]⟩

theorem stepQuotedValue {quote : Char} {empty : Bool}
    (here : reader.state = .quotedValue quote empty) (same : SameName reader attr) (c : Char) :
    Agree (reader.step c) (stepQuotedValue quote attr c).1 := by
  rw [SegmentReader.step, here]
  unfold LexerState.stepQuotedValue
  dsimp only
  split
  · trivial
  split
  · exact ⟨same, rfl⟩
  · exact ⟨same, false, rfl, by simp [pushValue]⟩

theorem stepUnquotedValue (attr : OpenAttribute) (c : Char) :
    Agree reader (stepUnquotedValue attr c).1 := by
  unfold LexerState.stepUnquotedValue
  split
  · trivial
  split
  · exact of_isBare (isBare_closeTag _ false)
  split
  · trivial
  · exact List.cons_ne_nil _ _

theorem stepBogusComment (text : List Char) (c : Char) :
    Agree reader (stepBogusComment text c).1 := by
  unfold LexerState.stepBogusComment
  split <;> trivial

theorem stepDeclaration (seen : List Char) (c : Char) :
    Agree reader (stepDeclaration seen c).1 := by
  unfold LexerState.stepDeclaration
  split
  · trivial
  split
  · trivial
  split
  · trivial
  split
  · trivial
  · exact stepBogusComment seen c

theorem stepCommentTail (text : List Char) (tail : CommentTail) (c : Char) :
    Agree reader (stepCommentTail text tail c).1 := by
  cases tail <;>
  · simp only [LexerState.stepCommentTail, LexerState.stepComment]
    repeat' split
    all_goals trivial

theorem stepLessThan (mode : TextMode) (c : Char) :
    Agree reader (stepLessThan mode c).1 := by
  have after : Agree reader (stepContentAfter ['<'] mode c).1 :=
    of_isBare (LexerSketch.isBare_stepContentAfter ['<'] mode c)
  unfold LexerState.stepLessThan
  split
  · trivial
  split
  · split
    · trivial
    split
    · trivial
    split
    · trivial
    · exact after
  · split
    · trivial
    · exact after
  · split
    · trivial
    · exact after
  · exact after

theorem stepEndTagOpen (mode : TextMode) (c : Char) :
    Agree reader (stepEndTagOpen mode c).1 := by
  cases mode with
  | data =>
    unfold LexerState.stepEndTagOpen
    dsimp only
    split
    · trivial
    split
    · trivial
    · exact stepBogusComment [] c
  | escapable element | script element phase =>
    unfold LexerState.stepEndTagOpen
    dsimp only
    split
    · trivial
    · exact of_isBare (LexerSketch.isBare_stepContentAfter _ _ c)

/-- In raw text nothing begins a tag but the name of the element in an end tag. -/
theorem step_text {missing : List Char} (inText : InText reader.tag state missing) (c : Char) :
    Agree (reader.step c) (state.step c).1 := by
  cases inText with
  | content | nestedLessThan | leaving => exact of_isBare (LexerSketch.isBare_stepContent _ c)
  | reference reference =>
    rw [LexerState.step]
    split
    · trivial
    · trivial
    · exact of_isBare (LexerSketch.isBare_stepContentAfter _ _ c)
  | lessThan => exact stepLessThan _ c
  | endTagOpen => exact stepEndTagOpen _ c
  | @rawEndTag mode name even own unfinished =>
    have goesOn : endsText mode name = false := by
      cases mode with
      | data => rfl
      | escapable element | script element phase =>
        cases own
        simpa [endsText] using unfinished
    rw [LexerState.step, stepRawEndTag, goesOn, Bool.false_and, if_neg Bool.false_ne_true]
    split
    · trivial
    · exact of_isBare (LexerSketch.isBare_stepContentAfter _ _ c)

theorem step_tagName {tag : OpenTag} {name : List Char}
    (here : reader.state = .tagName tag.closing name) (c : Char) :
    Agree (reader.step c) ((LexerState.tagName tag).step c).1 := by
  rw [LexerState.step]
  by_cases ends : endsWord c = true
  · rw [if_pos ends, InStep.stepTagName here ends]
    exact stepBeforeAttributeName tag (ne_zero_of_endsWord ends)
  · rw [if_neg ends]
    trivial

theorem step_rawEndTag {mode : TextMode} {name : List Char}
    (here : reader.state = .tagName true reader.tag.toList.reverse) (c : Char) :
    Agree (reader.step c) ((LexerState.rawEndTag mode name).step c).1 := by
  rw [LexerState.step, stepRawEndTag]
  split
  · trivial
  split
  · next ends =>
    rw [Bool.and_eq_true] at ends
    rw [InStep.stepTagName here ends.2]
    exact stepBeforeAttributeName _ (ne_zero_of_endsWord ends.2)
  · exact of_isBare (LexerSketch.isBare_stepContentAfter _ _ c)

/-- The letters of a name are those that the lexer keeps, as none of them is the character zero. -/
theorem step_attributeName {name : List Char} (here : reader.state = .attributeName name)
    (agree : Agree reader (.attributeName attr)) (spelled : c ≠ '\x00') :
    Agree (reader.step c) ((LexerState.attributeName attr).step c).1 := by
  obtain ⟨empty, other, there, same⟩ := agree
  obtain rfl : name = other := by simpa [here] using there
  have named : SameName (reader.nameAttribute name) attr := by
    rw [SameName, same, SegmentReader.nameAttribute, String.toList_ofList, List.map_reverse]
  rw [SegmentReader.step, here, LexerState.step]
  dsimp only
  by_cases blank : isBlank c = true
  · rw [if_pos blank, if_pos blank]
    exact ⟨empty, named⟩
  by_cases equals : c = '='
  · subst equals
    exact ⟨empty, named⟩
  rw [if_neg blank, if_neg blank, if_neg equals, if_neg equals]
  by_cases slash : c = '/'
  · subst slash
    trivial
  by_cases greater : c = '>'
  · subst greater
    exact of_isBare (isBare_closeTag _ false)
  · rw [if_neg slash, if_neg greater, if_neg (by simp [endsWord, *])]
    exact ⟨empty, c :: name, rfl, by simp [same, nameChar_of_ne_zero spelled]⟩

/-- Whatever a reference stands for, the value is not empty behind it. -/
theorem step_quotedReference {quote : Char} {empty : Bool} {reference : Reference}
    (here : reader.state = .quotedValue quote empty) (quotes : isQuote quote = true)
    (agree : Agree reader (.valueReference (some quote) attr reference)) (c : Char) :
    Agree (reader.step c) ((LexerState.valueReference (some quote) attr reference).step c).1 := by
  obtain ⟨same, there⟩ := agree
  obtain rfl : empty = false := by simpa [here] using there
  have pushed (text : List Char) : SameName reader (text.foldl pushValue attr) := by
    rwa [foldl_pushValue]
  rw [LexerState.step]
  obtain ⟨text, ended⟩ | ⟨part, outcome⟩ := reference.step_cases true c
  · rw [ended]
    exact stepQuotedValue here (pushed text) c
  have stays : reader.step c = reader.enter (.quotedValue quote false) := by
    rw [SegmentReader.step, here]
    exact if_neg (InStep.ne_quote_of_continues part quotes)
  rw [stays]
  obtain ⟨further, goesOn⟩ | ⟨text, filled, done⟩ := outcome
  · rw [goesOn]
    exact ⟨same, rfl⟩
  · rw [done]
    refine ⟨pushed text, false, rfl, ?_⟩
    simp [foldl_pushValue, filled]

theorem step_unquotedReference (reference : Reference) (c : Char) :
    Agree reader ((LexerState.valueReference none attr reference).step c).1 := by
  rw [LexerState.step]
  obtain ⟨text, ended⟩ | ⟨-, ⟨further, goesOn⟩ | ⟨text, filled, done⟩⟩ := reference.step_cases true c
  · rw [ended]
    exact stepUnquotedValue _ c
  · rw [goesOn]
    trivial
  · rw [done]
    show (text.foldl pushValue attr).value ≠ []
    simp [foldl_pushValue, filled]

/-- The readers go on to agree, at any character at which the lexer does not go its own way. -/
theorem step (inStep : InStep reader state) (agree : Agree reader state)
    (steady : state.swerves c = false) : Agree (reader.step c) (state.step c).1 := by
  rw [swerves, Bool.or_eq_false_iff] at steady
  obtain ⟨-, spelled⟩ := steady
  -- Where the lexer would replace a character of a name, it swerves, so names are spelled alike.
  cases inStep with
  | data here => exact of_isBare (LexerSketch.isBare_stepContent .data c)
  | dataReference here reference =>
    rw [LexerState.step]
    split
    · trivial
    · trivial
    · exact of_isBare (LexerSketch.isBare_stepContentAfter _ _ c)
  | lessThan here => exact stepLessThan .data c
  | endTagOpen here => exact stepEndTagOpen .data c
  | tagName here same => exact step_tagName here c
  | beforeAttributeName here knows | afterQuotedValue here knows =>
    rw [SegmentReader.step, here]
    exact stepBeforeAttributeName _ (by simpa [replaces] using spelled)
  | attributeName here knows =>
    exact step_attributeName here agree (by simpa [replaces] using spelled)
  | afterAttributeName here knows =>
    rw [SegmentReader.step, here, LexerState.step]
    dsimp only
    split
    · exact agree
    split
    · exact agree
    · exact stepBeforeAttributeName _ (by simpa [replaces] using spelled)
  | @beforeAttributeValue attr here knows =>
    rw [SegmentReader.step, here, LexerState.step]
    dsimp only
    split
    · exact agree
    split
    · exact ⟨agree.2, true, rfl, by simp [agree.1]⟩
    · exact stepUnquotedValue attr c
  | quotedValue here quotes knows => exact stepQuotedValue here agree.1 c
  | quotedReference here quotes knows => exact step_quotedReference here quotes agree c
  | unquotedValue here knows => exact stepUnquotedValue _ c
  | unquotedReference here knows => exact step_unquotedReference _ c
  | selfClosing here knows =>
    rw [SegmentReader.step, here, LexerState.step]
    dsimp only
    split
    · exact of_isBare (isBare_closeTag _ true)
    · exact stepBeforeAttributeName _ (by simpa [replaces] using spelled)
  | declaration here => exact stepDeclaration _ c
  | doctype here =>
    rw [LexerState.step]
    split <;> trivial
  | comment here => exact stepCommentTail _ _ c
  | bogusComment here => exact stepBogusComment _ c
  | text here listed inText => exact step_text inText c
  | endTag listed here own finished => exact step_rawEndTag here c

end Agree

/-! ## Through a literal -/

/-- In step, and in agreement on the attribute that is being read. -/
structure Together (reader : SegmentReader) (state : LexerState) : Prop where
  inStep : InStep reader state
  agree : Agree reader state

namespace Together

open LexerState

variable {reader : SegmentReader} {state : LexerState}

theorem start : Together .start .start :=
  ⟨.data rfl, trivial⟩

theorem feed (together : Together reader state) {text : List Char}
    (steady : state.swervesIn text = false) :
    Together (reader.feed text) (state.advance text).1 := by
  induction text generalizing reader state with
  | nil => exact together
  | cons c text ih =>
    rw [swervesIn, Bool.or_eq_false_iff] at steady
    have straight : state.strays c = false := (Bool.or_eq_false_iff.mp steady.1).1
    exact ih ⟨together.inStep.step straight, together.agree.step together.inStep steady.1⟩ steady.2

/-- The lexer reads a segment with its line ends made alike. -/
theorem feed_segment (together : Together reader state) {segment : List Char}
    (steady : state.swervesIn (normalizeLines segment) = false) :
    Together (reader.feed segment) (state.advance (normalizeLines segment)).1 := by
  rw [together.inStep.feed_normalizeLines (straysIn_of_swervesIn steady)]
  exact together.feed steady

theorem of_beforeAttributeValue (together : Together reader state)
    (here : reader.state = .beforeAttributeValue) :
    ∃ attr, state = .beforeAttributeValue attr ∧ attr.value = [] ∧ SameName reader attr := by
  obtain ⟨attr, rfl, -⟩ := together.inStep.of_beforeAttributeValue here
  exact ⟨attr, rfl, together.agree⟩

/-- If nothing of a quoted value has been read, the lexer is not in a reference. -/
theorem of_quotedValue (together : Together reader state) {quote : Char}
    (here : reader.state = .quotedValue quote true) :
    ∃ attr, isQuote quote = true ∧ state = .quotedValue quote attr ∧ attr.value = [] ∧
      SameName reader attr := by
  obtain ⟨attr, quotes, -, rfl | ⟨reference, rfl⟩⟩ := together.inStep.of_quotedValue here
  · obtain ⟨same, empty, there, none⟩ := together.agree
    rw [here] at there
    cases there
    exact ⟨attr, quotes, rfl, none.mp rfl, same⟩
  · obtain ⟨-, there⟩ := together.agree
    rw [here] at there
    cases there

/-- Behind a value the readers are together again. -/
theorem place (together : Together reader state) {after : SegmentReader} {next : List Char}
    {last : Bool} {position : Position} (placed : reader.place next last = .ok (position, after))
    (wording : Wording) (index : Nat) :
    Together after (state.advance (wording.word index)).1 := by
  refine ⟨together.inStep.place placed wording index, ?_⟩
  obtain ⟨here, -, rfl⟩ | ⟨here, -, rfl⟩ | ⟨quote, here, -, rfl⟩ :=
    SegmentReader.place_eq_ok placed
  · obtain ⟨before, read, -⟩ := together.inStep.advance_word here wording index
    rw [read]
    trivial
  · obtain ⟨attr, rfl, -⟩ := together.of_beforeAttributeValue here
    have same : (LexerState.beforeAttributeValue attr).advance (wording.word index) =
        (LexerState.unquotedValue attr).advance (wording.word index) :=
      advance_word_congr (by rfl) wording index
    rw [same, advance_unquotedValue attr (wording.calm index)]
    show (wording.word index).reverse ++ attr.value ≠ []
    simp [wording.word_ne_nil]
  · obtain ⟨attr, quotes, rfl, -, same⟩ := together.of_quotedValue here
    rw [advance_quotedValue quotes attr (wording.calm index)]
    exact ⟨same, false, rfl, by simp [wording.word_ne_nil]⟩

end Together

end LiveMarkup
