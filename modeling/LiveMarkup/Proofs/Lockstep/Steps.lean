import LiveMarkup.Proofs.Lockstep.RawText

/-! # Two readers at one character

Tags, values, comments and declarations, one lemma for each function of the lexer.  `InStep.step`
puts them together. -/

namespace LiveMarkup

open Markup SegmentReader

/-! ## Both readers in a tag -/

theorem nameChar_eq_iff {c letter : Char} (plain : letter.isAlpha = true) :
    LexerState.nameChar c = letter ↔ c.toLower = letter := by
  unfold LexerState.nameChar LexerState.visible
  by_cases zero : c.toLower = '\x00'
  · rw [if_pos zero, zero]
    have notReplaced := ne_of_isAlpha plain Reference.replacement rfl
    have notZero := ne_of_isAlpha plain '\x00' rfl
    exact ⟨fun same => absurd same.symm notReplaced, fun same => absurd same.symm notZero⟩
  · rw [if_neg zero]

theorem map_nameChar_eq_iff {name letters : List Char} (plain : ∀ c ∈ letters, c.isAlpha = true) :
    name.map LexerState.nameChar = letters ↔ name.map Char.toLower = letters := by
  induction name generalizing letters with
  | nil => exact Iff.rfl
  | cons c name ih =>
    cases letters with
    | nil => simp
    | cons letter letters =>
      rw [List.forall_mem_cons] at plain
      rw [List.map_cons, List.map_cons, List.cons.injEq, List.cons.injEq, nameChar_eq_iff plain.1,
        ih plain.2]

theorem lowerCase_ofList_eq_iff {name : List Char} {element : String} :
    lowerCase (String.ofList name) = element ↔ name.map Char.toLower = element.toList := by
  rw [← String.toList_inj, lowerCase, String.toList_map, String.toList_ofList]

namespace Knows

variable {reader : SegmentReader} {tag : OpenTag}

/-- Both readers have read the same name. -/
theorem nameTag (reader : SegmentReader) (closing : Bool) (name : List Char)
    (attributes : List (String × String)) :
    Knows (reader.nameTag closing name) ⟨closing, name.map LexerState.nameChar, attributes⟩ where
  closing := rfl
  name element listed := by
    rw [SegmentReader.nameTag, lowerCase_ofList_eq_iff, ← List.map_reverse,
      map_nameChar_eq_iff (isAlpha_of_listed listed)]

/-- Both readers have read the name of the element that the text belongs to. -/
theorem endTag (listed : reader.tag ∈ rawTextElements) {name : List Char}
    (finished : (name.map Char.toLower).reverse = reader.tag.toList) :
    Knows (reader.nameTag true reader.tag.toList.reverse) ⟨true, name.map Char.toLower, []⟩ where
  closing := rfl
  name element _ := by
    rw [SegmentReader.nameTag, List.reverse_reverse, String.ofList_toList,
      lowerCase_of_listed listed, finished, String.toList_inj]

theorem nameAttribute (knows : Knows reader tag) (name : List Char) :
    Knows (reader.nameAttribute name) tag :=
  ⟨knows.closing, knows.name⟩

theorem enter (knows : Knows reader tag) (state : ReaderState) : Knows (reader.enter state) tag :=
  ⟨knows.closing, knows.name⟩

theorem keepAttribute {attr : OpenAttribute} (knows : Knows reader attr.tag) :
    Knows reader (LexerState.keepAttribute attr) :=
  ⟨knows.closing, knows.name⟩

theorem pushValue {attr : OpenAttribute} (text : List Char) (knows : Knows reader attr.tag) :
    Knows reader (text.foldl LexerState.pushValue attr).tag := by
  rwa [LexerState.tag_foldl_pushValue]

theorem contains_eq (knows : Knows reader tag) :
    rawTextElements.contains reader.tag =
      rawTextElements.contains (String.ofList tag.name.reverse) := by
  rw [Bool.eq_iff_iff, List.contains_iff_mem, List.contains_iff_mem]
  constructor
  · intro listed
    rw [(knows.name _ listed).mp rfl, String.ofList_toList]
    exact listed
  · intro listed
    rw [(knows.name _ listed).mpr (String.toList_ofList).symm]
    exact listed

end Knows

namespace InStep

open LexerState

variable {reader : SegmentReader} {tag : OpenTag} {attr : OpenAttribute}

theorem closeTag (knows : Knows reader tag) (selfClosing : Bool) :
    InStep (reader.closeTag selfClosing) (LexerState.closeTag tag selfClosing).1 := by
  unfold SegmentReader.closeTag LexerState.closeTag
  rw [knows.closing, knows.contains_eq]
  dsimp only
  by_cases closing : tag.closing = true
  · rw [closing]
    exact .data rfl
  · rw [Bool.not_eq_true] at closing
    rw [closing]
    unfold modeOf
    cases selfClosing with
    | true => exact .data rfl
    | false =>
      by_cases listed : rawTextElements.contains (String.ofList tag.name.reverse) = true
      · have member : reader.tag ∈ rawTextElements := by
          rwa [← List.contains_iff_mem, knows.contains_eq]
        have same : reader.tag = String.ofList tag.name.reverse := by
          rw [(knows.name _ member).mp rfl, String.ofList_toList]
        rw [listed]
        simp only [Bool.not_false, Bool.and_true, Bool.not_true, Bool.or_false, if_true,
          Bool.false_eq_true, if_false]
        refine .text rfl member ?_
        dsimp only
        rw [same]
        split
        · exact .content rfl rfl
        · exact .content rfl rfl
      · rw [Bool.not_eq_true] at listed
        rw [listed]
        exact .data rfl

theorem stepBeforeAttributeName (knows : Knows reader tag) (c : Char) :
    InStep (reader.stepBeforeAttributeName c) (LexerState.stepBeforeAttributeName tag c).1 := by
  unfold SegmentReader.stepBeforeAttributeName LexerState.stepBeforeAttributeName
  split
  · exact .beforeAttributeName rfl (knows.enter _)
  split
  · exact .selfClosing rfl (knows.enter _)
  split
  · exact closeTag knows false
  · exact .attributeName rfl (knows.enter _)

/-- Behind a character that ends a name, the readers go on as behind a blank. -/
theorem stepTagName {closing : Bool} {name : List Char} (here : reader.state = .tagName closing name)
    {c : Char} (ends : endsWord c = true) :
    reader.step c = (reader.nameTag closing name).stepBeforeAttributeName c := by
  rw [SegmentReader.step, here]
  unfold SegmentReader.stepBeforeAttributeName
  dsimp only
  split
  · rfl
  split
  · rfl
  split
  · rfl
  · next blank slash greater => simp [endsWord, blank, slash, greater] at ends

theorem stepQuotedValue {quote : Char} {empty : Bool}
    (here : reader.state = .quotedValue quote empty) (quotes : isQuote quote = true)
    (knows : Knows reader attr.tag) (c : Char) :
    InStep (reader.step c) (LexerState.stepQuotedValue quote attr c).1 := by
  rw [SegmentReader.step, here]
  unfold LexerState.stepQuotedValue
  dsimp only
  split
  · exact .afterQuotedValue rfl (knows.keepAttribute.enter _)
  split
  · exact .quotedReference rfl quotes (knows.enter _)
  · exact .quotedValue rfl quotes (knows.enter _)

theorem stepUnquotedValue (here : reader.state = .unquotedValue) (knows : Knows reader attr.tag)
    (c : Char) : InStep (reader.step c) (LexerState.stepUnquotedValue attr c).1 := by
  rw [SegmentReader.step, here]
  unfold LexerState.stepUnquotedValue
  dsimp only
  split
  · exact .beforeAttributeName rfl (knows.keepAttribute.enter _)
  split
  · exact closeTag knows.keepAttribute false
  split
  · exact .unquotedReference here knows
  · exact .unquotedValue here knows

/-! ## Both readers outside of tags -/

theorem stepData (reader : SegmentReader) (text : List Char) (c : Char) :
    InStep (reader.stepData c) (stepContentAfter text .data c).1 := by
  unfold SegmentReader.stepData stepContentAfter stepContent
  dsimp only
  by_cases less : c = '<'
  · subst less
    exact .lessThan rfl
  · rw [if_neg less, if_neg less]
    split
    · exact .dataReference rfl .start
    · exact .data rfl

theorem stepBogusComment (here : reader.state = .bogusComment) (text : List Char) (c : Char) :
    InStep (reader.step c) (LexerState.stepBogusComment text c).1 := by
  rw [SegmentReader.step, here]
  unfold LexerState.stepBogusComment
  dsimp only
  split
  · exact .data rfl
  · exact .bogusComment here

/-- Declarations that are neither comments nor document types are comments to both readers. -/
theorem stepDeclaration {seen : List Char} (here : reader.state = declared seen) (c : Char) :
    InStep (reader.step c) (LexerState.stepDeclaration seen c).1 := by
  by_cases greater : c = '>'
  · subst greater
    have ended : reader.step '>' = reader.enter .data := by
      unfold declared at here
      split at here
      · simp [SegmentReader.step, here]
      split at here
      · simp [SegmentReader.step, here]
      · simp [SegmentReader.step, here]
    rw [LexerSketch.stepDeclaration_foreign seen (by decide) (by decide), ended]
    exact .data rfl
  -- If it does not become a comment, it is a bogus one to the segment reader.  To the lexer it may be a
  -- document type as well, or undecided.
  have bogus {next : SegmentReader} (there : next.state = .bogusComment)
      (first : ¬ (c = '-' ∧ seen = [])) (second : ¬ (c = '-' ∧ seen = ['-'])) :
      InStep next (LexerState.stepDeclaration seen c).1 := by
    unfold LexerState.stepDeclaration
    rw [if_neg first, if_neg second]
    split
    · exact .doctype there
    split
    · refine .declaration (there.trans ?_)
      rw [declared, if_neg (List.cons_ne_nil c seen), if_neg]
      rintro same
      exact first (List.cons.inj same)
    · unfold LexerState.stepBogusComment
      rw [if_neg greater]
      exact .bogusComment there
  unfold declared at here
  split at here
  · next none =>
    subst none
    by_cases dash : c = '-'
    · subst dash
      rw [SegmentReader.step, here]
      exact .declaration rfl
    · refine bogus ?_ (by simp [dash]) (by simp)
      rw [SegmentReader.step, here]
      simp [dash, greater, enter]
  · next some =>
    split at here
    · next single =>
      subst single
      by_cases dash : c = '-'
      · subst dash
        rw [SegmentReader.step, here]
        exact .comment rfl
      · refine bogus ?_ (by simp) (by simp [dash])
        rw [SegmentReader.step, here]
        simp [dash, greater, enter]
    · next more =>
      refine bogus ?_ (by simp [some]) (by simp [more])
      rw [SegmentReader.step, here]
      simp [greater, here]

theorem stepCommentTail {tail : CommentTail} (here : reader.state = .comment (dashCount tail))
    (text : List Char) {c : Char} (steady : (LexerState.comment text tail).strays c = false) :
    InStep (reader.step c) (LexerState.stepCommentTail text tail c).1 := by
  rw [SegmentReader.step, here]
  dsimp only
  by_cases dash : c = '-'
  · subst dash
    cases tail <;> exact .comment rfl
  by_cases greater : c = '>'
  · subst greater
    cases tail with
    | start | startDash | bang => cases steady
    | none | dash => exact .comment rfl
    | dashes => exact .data rfl
  · rw [if_neg dash, if_neg (by simp [greater])]
    cases tail with
    | dashes =>
      simp only [LexerState.stepCommentTail, stepComment, if_neg dash, if_neg greater]
      split <;> exact .comment rfl
    | _ =>
      simp only [LexerState.stepCommentTail, stepComment, if_neg dash, if_neg greater]
      exact .comment rfl

/-! ## Both readers in a reference -/

theorem ne_quote_of_continues {c quote : Char} (part : Reference.continues c = true)
    (quotes : isQuote quote = true) : c ≠ quote := by
  rintro rfl
  simp only [isQuote, Bool.or_eq_true, beq_iff_eq] at quotes
  obtain rfl | rfl := quotes <;> cases part

/-- The segment reader takes a reference for text. -/
theorem step_dataReference (here : reader.state = .data) (reference : Reference) (c : Char) :
    InStep (reader.step c) ((LexerState.contentReference .data reference).step c).1 := by
  rw [SegmentReader.step, here, LexerState.step]
  obtain ⟨text, ended⟩ | ⟨part, outcome⟩ := reference.step_cases false c
  · rw [ended]
    exact stepData reader text c
  have stays : reader.stepData c = reader.enter .data := by
    rw [SegmentReader.stepData, if_neg]
    rintro rfl
    cases part
  dsimp only
  rw [stays]
  obtain ⟨further, goesOn⟩ | ⟨text, -, done⟩ := outcome
  · rw [goesOn]
    exact .dataReference rfl further
  · rw [done]
    exact .data rfl

/-- The segment reader takes a reference for a part of the value, as the quote is none of it. -/
theorem step_quotedReference {quote : Char} {empty : Bool} {reference : Reference}
    (here : reader.state = .quotedValue quote empty) (quotes : isQuote quote = true)
    (knows : Knows reader attr.tag) (c : Char) :
    InStep (reader.step c) ((LexerState.valueReference (some quote) attr reference).step c).1 := by
  rw [LexerState.step]
  obtain ⟨text, ended⟩ | ⟨part, outcome⟩ := reference.step_cases true c
  · rw [ended]
    exact stepQuotedValue here quotes (Knows.pushValue text knows) c
  have stays : reader.step c = reader.enter (.quotedValue quote false) := by
    rw [SegmentReader.step, here]
    exact if_neg (ne_quote_of_continues part quotes)
  rw [stays]
  obtain ⟨further, goesOn⟩ | ⟨text, -, done⟩ := outcome
  · rw [goesOn]
    exact .quotedReference rfl quotes (knows.enter _)
  · rw [done]
    exact .quotedValue rfl quotes ((Knows.pushValue text knows).enter _)

/-- Nothing that ends a value without quotes is part of a reference in it. -/
theorem step_unquotedReference {reference : Reference} (here : reader.state = .unquotedValue)
    (knows : Knows reader attr.tag) (c : Char) :
    InStep (reader.step c) ((LexerState.valueReference none attr reference).step c).1 := by
  rw [LexerState.step]
  obtain ⟨text, ended⟩ | ⟨part, outcome⟩ := reference.step_cases true c
  · rw [ended]
    exact stepUnquotedValue here (Knows.pushValue text knows) c
  have solid : ¬ isBlank c = true := by
    simp only [isBlank, Bool.or_eq_true, beq_iff_eq, or_assoc]
    rintro (rfl | rfl | rfl | rfl | rfl) <;> cases part
  have inside : c ≠ '>' := by
    rintro rfl
    cases part
  have stays : reader.step c = reader := by
    rw [SegmentReader.step, here]
    dsimp only
    rw [if_neg solid, if_neg inside]
  rw [stays]
  obtain ⟨further, goesOn⟩ | ⟨text, -, done⟩ := outcome
  · rw [goesOn]
    exact .unquotedReference here knows
  · rw [done]
    exact .unquotedValue here (Knows.pushValue text knows)

/-! ## Where a tag begins -/

theorem step_lessThan (here : reader.state = .tagOpen) (c : Char) :
    InStep (reader.step c) ((LexerState.lessThan .data).step c).1 := by
  rw [SegmentReader.step, here]
  simp only [LexerState.step, stepLessThan]
  by_cases slash : c = '/'
  · subst slash
    exact .endTagOpen rfl
  by_cases bang : c = '!'
  · subst bang
    exact .declaration rfl
  by_cases question : c = '?'
  · subst question
    exact .bogusComment rfl
  rw [if_neg bang, if_neg slash, if_neg question, if_neg slash, if_neg bang, if_neg question]
  by_cases letter : c.isAlpha = true
  · rw [if_pos letter, if_pos letter]
    exact .tagName rfl (by simp [nameChar_of_isAlpha letter])
  · rw [if_neg letter, if_neg letter]
    exact stepData reader ['<'] c

theorem step_endTagOpen (here : reader.state = .endTagOpen) (c : Char) :
    InStep (reader.step c) ((LexerState.endTagOpen .data).step c).1 := by
  rw [SegmentReader.step, here]
  simp only [LexerState.step, stepEndTagOpen]
  by_cases letter : c.isAlpha = true
  · rw [if_pos letter, if_pos letter]
    exact .tagName rfl (by simp [nameChar_of_isAlpha letter])
  rw [if_neg letter, if_neg letter]
  by_cases greater : c = '>'
  · rw [if_pos greater, if_pos greater]
    exact .data rfl
  · rw [if_neg greater, if_neg greater, LexerState.stepBogusComment, if_neg greater]
    exact .bogusComment rfl

theorem step_tagName {name : List Char} (here : reader.state = .tagName tag.closing name)
    (same : tag.name = name.map nameChar) (c : Char) :
    InStep (reader.step c) ((LexerState.tagName tag).step c).1 := by
  rw [LexerState.step]
  by_cases ends : endsWord c = true
  · rw [if_pos ends, stepTagName here ends]
    have knows := Knows.nameTag reader tag.closing name tag.attributes
    rw [← same] at knows
    exact stepBeforeAttributeName knows c
  · rw [if_neg ends, SegmentReader.step, here]
    simp only [endsWord, Bool.or_eq_true, beq_iff_eq, not_or] at ends
    dsimp only
    rw [if_neg ends.1.1, if_neg ends.1.2, if_neg ends.2]
    exact .tagName rfl (by simp [same])

/-- The name of an element with raw text is over in its end tag, since the lexer does not stray. -/
theorem step_endTag {mode : TextMode} {name : List Char}
    (here : reader.state = .tagName true reader.tag.toList.reverse)
    (listed : reader.tag ∈ rawTextElements) (own : mode.element? = some reader.tag)
    (finished : (name.map Char.toLower).reverse = reader.tag.toList) {c : Char}
    (steady : (LexerState.rawEndTag mode name).strays c = false) :
    InStep (reader.step c) ((LexerState.rawEndTag mode name).step c).1 := by
  have known : endsText mode name = true := by
    cases mode with
    | data => cases own
    | escapable element | script element phase =>
      cases own
      simpa [endsText] using finished
  have ends : endsWord c = true := by
    rw [LexerState.strays, known] at steady
    simpa using steady
  have notLetter : ¬ c.isAlpha = true := fun letter => by
    rw [endsWord_of_isAlpha letter] at ends
    cases ends
  rw [LexerState.step, stepRawEndTag, if_neg notLetter, known, ends, stepTagName here ends]
  exact stepBeforeAttributeName (Knows.endTag listed finished) c

/-! ## Where an attribute begins -/

theorem step_attributeName {name : List Char} (here : reader.state = .attributeName name)
    (knows : Knows reader attr.tag) (c : Char) :
    InStep (reader.step c) ((LexerState.attributeName attr).step c).1 := by
  have named : Knows (reader.nameAttribute name) attr.tag := knows.nameAttribute name
  rw [SegmentReader.step, here, LexerState.step]
  dsimp only
  by_cases blank : isBlank c = true
  · rw [if_pos blank, if_pos blank]
    exact .afterAttributeName rfl (named.enter _)
  rw [if_neg blank, if_neg blank]
  by_cases equals : c = '='
  · subst equals
    exact .beforeAttributeValue rfl (named.enter _)
  rw [if_neg equals]
  by_cases slash : c = '/'
  · subst slash
    exact .selfClosing rfl (named.keepAttribute.enter _)
  by_cases greater : c = '>'
  · subst greater
    exact closeTag named.keepAttribute false
  · rw [if_neg slash, if_neg equals, if_neg greater, if_neg (by simp [endsWord, *])]
    exact .attributeName rfl (knows.enter _)

theorem step_beforeAttributeValue (here : reader.state = .beforeAttributeValue)
    (knows : Knows reader attr.tag) (c : Char) :
    InStep (reader.step c) ((LexerState.beforeAttributeValue attr).step c).1 := by
  rw [SegmentReader.step, here, LexerState.step]
  dsimp only
  by_cases blank : isBlank c = true
  · rw [if_pos blank, if_pos blank]
    exact .beforeAttributeValue here knows
  rw [if_neg blank, if_neg blank]
  by_cases quotes : c = '"' ∨ c = '\''
  · rw [if_pos quotes, if_pos quotes]
    exact .quotedValue rfl (by simpa [isQuote] using quotes) (knows.enter _)
  rw [if_neg quotes, if_neg quotes, LexerState.stepUnquotedValue, if_neg blank]
  split
  · exact closeTag knows.keepAttribute false
  split
  · exact .unquotedReference rfl (knows.enter _)
  · exact .unquotedValue rfl (knows.enter _)

/-! ## Any character -/

/-- The readers stay together at a character at which the lexer does not stray. -/
theorem step {state : LexerState} (inStep : InStep reader state) {c : Char}
    (steady : state.strays c = false) : InStep (reader.step c) (state.step c).1 := by
  cases inStep with
  | data here =>
    rw [SegmentReader.step, here]
    exact stepData reader [] c
  | dataReference here reference => exact step_dataReference here reference c
  | lessThan here => exact step_lessThan here c
  | endTagOpen here => exact step_endTagOpen here c
  | tagName here same => exact step_tagName here same c
  | beforeAttributeName here knows | afterQuotedValue here knows =>
    rw [SegmentReader.step, here]
    exact stepBeforeAttributeName knows c
  | attributeName here knows => exact step_attributeName here knows c
  | afterAttributeName here knows =>
    rw [SegmentReader.step, here, LexerState.step]
    dsimp only
    split
    · exact .afterAttributeName here knows
    split
    · exact .beforeAttributeValue rfl (knows.enter _)
    · exact stepBeforeAttributeName knows.keepAttribute c
  | beforeAttributeValue here knows => exact step_beforeAttributeValue here knows c
  | quotedValue here quotes knows => exact stepQuotedValue here quotes knows c
  | quotedReference here quotes knows => exact step_quotedReference here quotes knows c
  | unquotedValue here knows => exact stepUnquotedValue here knows c
  | unquotedReference here knows => exact step_unquotedReference here knows c
  | selfClosing here knows =>
    rw [SegmentReader.step, here, LexerState.step]
    dsimp only
    split
    · exact closeTag knows true
    · exact stepBeforeAttributeName knows c
  | declaration here => exact stepDeclaration here c
  | doctype here =>
    rw [SegmentReader.step, here, LexerState.step]
    dsimp only
    split
    · exact .data rfl
    · exact .doctype here
  | comment here => exact stepCommentTail here _ steady
  | bogusComment here => exact stepBogusComment here _ c
  | text here listed inText => exact step_text inText here listed steady
  | endTag listed here own finished => exact step_endTag here listed own finished steady

end InStep

end LiveMarkup
