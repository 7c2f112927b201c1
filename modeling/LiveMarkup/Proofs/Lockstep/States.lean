import LiveMarkup.Proofs.Words

/-! # Two readers in step

A literal is read twice: the segment reader goes through its segments, and the lexer through the
markup that they make with placeholders between them.  The first one is much the simpler.  It knows
no character references, no comments that end early and no scripts inside comments of a script.

`InStep` says which states of the two belong together.  By `InStep.step` they stay together at every
character, except for the few that `strays` lists. -/

namespace LiveMarkup

open Markup SegmentReader

namespace Markup

/-- The element that a mode reads the text of. -/
def TextMode.element? : TextMode → Option String
  | data => none
  | escapable element | script element _ => some element

/-- The modes that are not in the middle of a tag inside a comment of a script. -/
def TextMode.isEven : TextMode → Bool
  | script _ .nestedLessThan | script _ (.leaving _) => false
  | _ => true

/-- Whether the lexer takes a turn that a simple reader misses: it ends a comment early, it stays in
the text of an element whose name has just been read in an end tag, or it does not leave that text
because the end tag is inside a comment. -/
def LexerState.strays (state : LexerState) (c : Char) : Bool :=
  match state with
  | .comment _ .start | .comment _ .startDash | .comment _ .bang => c == '>'
  | .rawEndTag mode name => endsText mode name && !endsWord c
  | .content (.script element (.leaving word)) =>
    c.isAlpha && (c.toLower :: word).reverse == element.toList
  | _ => false

end Markup

/-! ## States that belong together -/

/-- What is still to come of the name of an element behind these letters.  If they are other letters,
everything is, the start of the end tag included. -/
def missingBehind (element : String) (letters : List Char) : List Char :=
  if letters.isPrefixOf element.toList then element.toList.drop letters.length
  else endTagStart element

/-- States of the lexer in the text of an element, with what is still to come of an end tag. -/
inductive InText (element : String) : LexerState → List Char → Prop where
  | content {mode : TextMode} (even : mode.isEven = true) (own : mode.element? = some element) :
      InText element (.content mode) (endTagStart element)
  | reference (reference : Reference) :
      InText element (.contentReference (.escapable element) reference) (endTagStart element)
  | lessThan {mode : TextMode} (even : mode.isEven = true) (own : mode.element? = some element) :
      InText element (.lessThan mode) (endTagStart element).tail
  | endTagOpen {mode : TextMode} (even : mode.isEven = true)
      (own : mode.element? = some element) :
      InText element (.endTagOpen mode) element.toList
  | rawEndTag {mode : TextMode} {name : List Char} (even : mode.isEven = true)
      (own : mode.element? = some element)
      (unfinished : (name.map Char.toLower).reverse ≠ element.toList) :
      InText element (.rawEndTag mode name) (missingBehind element (name.map Char.toLower).reverse)
  | nestedLessThan :
      InText element (.content (.script element .nestedLessThan)) (endTagStart element).tail
  | leaving {word : List Char} (unfinished : word.reverse ≠ element.toList) :
      InText element (.content (.script element (.leaving word)))
        (missingBehind element word.reverse)

/-- Whether the reader knows as much of the tag as counts: whether it is an end tag, and whether it
is that of an element with raw text. -/
structure Knows (reader : SegmentReader) (tag : OpenTag) : Prop where
  closing : reader.closing = tag.closing
  name : ∀ element ∈ rawTextElements, reader.tag = element ↔ tag.name.reverse = element.toList

/-- How many dashes a comment ends with. -/
def dashCount : CommentTail → Nat
  | .start | .none | .bang => 0
  | .startDash | .dash => 1
  | .dashes => 2

/-- The state of a reader of declarations behind what the lexer has seen of one. -/
def declared (seen : List Char) : ReaderState :=
  if seen = [] then .declaration false
  else if seen = ['-'] then .declaration true
  else .bogusComment

/-- States of the segment reader and of the lexer behind the same text. -/
inductive InStep (reader : SegmentReader) : LexerState → Prop where
  | data (here : reader.state = .data) : InStep reader (.content .data)
  | dataReference (here : reader.state = .data) (reference : Reference) :
      InStep reader (.contentReference .data reference)
  | lessThan (here : reader.state = .tagOpen) : InStep reader (.lessThan .data)
  | endTagOpen (here : reader.state = .endTagOpen) : InStep reader (.endTagOpen .data)
  | tagName {tag : OpenTag} {name : List Char} (here : reader.state = .tagName tag.closing name)
      (same : tag.name = name.map LexerState.nameChar) : InStep reader (.tagName tag)
  | beforeAttributeName {tag : OpenTag} (here : reader.state = .beforeAttributeName)
      (knows : Knows reader tag) : InStep reader (.beforeAttributeName tag)
  | afterQuotedValue {tag : OpenTag} (here : reader.state = .beforeAttributeName)
      (knows : Knows reader tag) : InStep reader (.afterQuotedValue tag)
  | attributeName {attr : OpenAttribute} {name : List Char}
      (here : reader.state = .attributeName name) (knows : Knows reader attr.tag) :
      InStep reader (.attributeName attr)
  | afterAttributeName {attr : OpenAttribute} (here : reader.state = .afterAttributeName)
      (knows : Knows reader attr.tag) : InStep reader (.afterAttributeName attr)
  | beforeAttributeValue {attr : OpenAttribute} (here : reader.state = .beforeAttributeValue)
      (knows : Knows reader attr.tag) : InStep reader (.beforeAttributeValue attr)
  | quotedValue {quote : Char} {empty : Bool} {attr : OpenAttribute}
      (here : reader.state = .quotedValue quote empty) (quotes : isQuote quote = true)
      (knows : Knows reader attr.tag) : InStep reader (.quotedValue quote attr)
  | quotedReference {quote : Char} {empty : Bool} {attr : OpenAttribute} {reference : Reference}
      (here : reader.state = .quotedValue quote empty) (quotes : isQuote quote = true)
      (knows : Knows reader attr.tag) : InStep reader (.valueReference (some quote) attr reference)
  | unquotedValue {attr : OpenAttribute} (here : reader.state = .unquotedValue)
      (knows : Knows reader attr.tag) : InStep reader (.unquotedValue attr)
  | unquotedReference {attr : OpenAttribute} {reference : Reference}
      (here : reader.state = .unquotedValue) (knows : Knows reader attr.tag) :
      InStep reader (.valueReference none attr reference)
  | selfClosing {tag : OpenTag} (here : reader.state = .selfClosing) (knows : Knows reader tag) :
      InStep reader (.selfClosing tag)
  | declaration {seen : List Char} (here : reader.state = declared seen) :
      InStep reader (.declaration seen)
  | doctype (here : reader.state = .bogusComment) : InStep reader .doctype
  | comment {text : List Char} {tail : CommentTail}
      (here : reader.state = .comment (dashCount tail)) : InStep reader (.comment text tail)
  | bogusComment {text : List Char} (here : reader.state = .bogusComment) :
      InStep reader (.bogusComment text)
  | text {state : LexerState} {missing : List Char} (here : reader.state = .rawText missing)
      (listed : reader.tag ∈ rawTextElements) (inText : InText reader.tag state missing) :
      InStep reader state
  /-- Behind the name of the element in an end tag.  The lexer does not know yet that it is one. -/
  | endTag {mode : TextMode} {name : List Char} (listed : reader.tag ∈ rawTextElements)
      (here : reader.state = .tagName true reader.tag.toList.reverse)
      (own : mode.element? = some reader.tag)
      (finished : (name.map Char.toLower).reverse = reader.tag.toList) :
      InStep reader (.rawEndTag mode name)

/-! ## Letters -/

/-- Only a letter can have another spelling. -/
theorem eq_of_toLower_eq {c d : Char} (same : c.toLower = d) (other : d.isAlpha = false) : c = d := by
  by_cases capital : c.val ≥ 'A'.val ∧ c.val ≤ 'Z'.val
  · unfold Char.toLower at same
    rw [dif_pos capital] at same
    subst same
    rw [← Bool.not_eq_true, isAlpha_iff, not_or, isLower_iff] at other
    simp only [UInt32.le_iff_toNat_le, ge_iff_le, UInt32.toNat_add] at capital other
    have small : 'A'.val.toNat = 65 ∧ 'Z'.val.toNat = 90 ∧ 'a'.val.toNat = 97 ∧
        'z'.val.toNat = 122 ∧ ('a'.val - 'A'.val).toNat = 32 := by decide
    omega
  · unfold Char.toLower at same
    rwa [dif_neg capital] at same

@[simp] theorem toLower_toLower (c : Char) : c.toLower.toLower = c.toLower := by
  have other (d : Char) (small : ¬ ('A'.val ≤ d.val ∧ d.val ≤ 'Z'.val)) : d.toLower = d := by
    unfold Char.toLower
    rw [dif_neg small]
  have small : ¬ ('A'.val ≤ c.toLower.val ∧ c.toLower.val ≤ 'Z'.val) := by
    unfold Char.toLower
    split
    · next capital =>
      simp only [UInt32.le_iff_toNat_le, ge_iff_le, UInt32.toNat_add] at capital ⊢
      have bounds : 'A'.val.toNat = 65 ∧ 'Z'.val.toNat = 90 ∧ ('a'.val - 'A'.val).toNat = 32 := by
        decide
      omega
    · next other => exact other
  exact other _ small

theorem lowerCase_lowerCase (name : String) : lowerCase (lowerCase name) = lowerCase name := by
  rw [← String.toList_inj]
  simp [lowerCase, String.toList_map]

theorem isAlpha_of_toLower {c : Char} (letter : c.toLower.isAlpha = true) : c.isAlpha = true := by
  by_contra other
  rw [Bool.not_eq_true] at other
  by_cases capital : c.val ≥ 'A'.val ∧ c.val ≤ 'Z'.val
  · rw [isAlpha_iff.mpr (.inl (isUpper_iff.mpr capital))] at other
    cases other
  · unfold Char.toLower at letter
    rw [dif_neg capital, other] at letter
    cases letter

/-- A letter is none of the characters that have a meaning in markup. -/
theorem ne_of_isAlpha {c : Char} (letter : c.isAlpha = true) (special : Char)
    (other : special.isAlpha = false) : c ≠ special := by
  rintro rfl
  rw [letter] at other
  cases other

theorem endsWord_of_isAlpha {c : Char} (letter : c.isAlpha = true) :
    LexerState.endsWord c = false := by
  simp only [LexerState.endsWord, isBlank, Bool.or_eq_false_iff, beq_eq_false_iff_ne]
  refine ⟨⟨⟨⟨⟨⟨?_, ?_⟩, ?_⟩, ?_⟩, ?_⟩, ?_⟩, ?_⟩ <;>
    exact ne_of_isAlpha letter _ rfl

theorem nameChar_of_isAlpha {c : Char} (letter : c.isAlpha = true) :
    LexerState.nameChar c = c.toLower := by
  refine if_neg fun zero => ?_
  exact ne_of_isAlpha letter '\x00' rfl (eq_of_toLower_eq zero rfl)

/-- The names of the elements with raw text are made of small letters. -/
theorem isAlpha_of_listed {element : String} (listed : element ∈ rawTextElements) :
    ∀ c ∈ element.toList, c.isAlpha = true := by
  simp only [rawTextElements, List.mem_cons, List.not_mem_nil, or_false] at listed
  rw [← List.all_eq_true]
  obtain rfl | rfl | rfl | rfl := listed <;> decide

theorem lowerCase_of_listed {element : String} (listed : element ∈ rawTextElements) :
    lowerCase element = element := by
  rw [← String.toList_inj, lowerCase, String.toList_map]
  simp only [rawTextElements, List.mem_cons, List.not_mem_nil, or_false] at listed
  obtain rfl | rfl | rfl | rfl := listed <;> decide

end LiveMarkup
