import LiveMarkup.Proofs.Printing.Positions
import LiveMarkup.Proofs.Printing.Spelling

/-! # Reading the markup of a draft

The markup of a printed draft, with a placeholder for each value, is read into the tokens that the
draft is made of (`Draft.run_fill`), and these are nested as the draft is (`Draft.parse_join`).

That a reference means the character it was written for takes a look at the table of names
(`Reference.spells?_of_mem_escapes`); everything else is in the state of the lexer alone. -/

namespace LiveMarkup

open Markup

/-! ## Prints with placeholders -/

/-- The characters, with placeholders at the breaks, the first of which has the given index. -/
def Print.fill (next : Nat) : Print → List Char
  | [] => []
  | none :: rest => Placeholder.chars next ++ Print.fill (next + 1) rest
  | some c :: rest => c :: Print.fill next rest

namespace Print

theorem fill_ofChars_append (next : Nat) (text : List Char) (rest : Print) :
    fill next (ofChars text ++ rest) = text ++ fill next rest := by
  induction text with
  | nil => rfl
  | cons c text ih => exact congrArg (c :: ·) ih

theorem joinFrom_segments {print : Print} {first : List Char} {more : List (List Char)}
    (same : segments print = first :: more) (next : Nat) :
    first ++ Placeholder.joinFrom next more = fill next print := by
  induction print generalizing first more next with
  | nil =>
    cases same
    rfl
  | cons glyph rest ih =>
    obtain ⟨segment, others, split⟩ := exists_segments_eq rest
    cases glyph with
    | none =>
      rw [segments, split, List.cons.injEq] at same
      obtain ⟨rfl, rfl⟩ := same
      rw [List.nil_append, Placeholder.joinFrom, fill, List.append_assoc, ih split]
    | some c =>
      rw [segments, split] at same
      obtain ⟨rfl, rfl⟩ := List.cons.inj same
      rw [List.cons_append, fill, ih split]

end Print

/-- The markup of the segments is what is printed, with placeholders. -/
theorem Draft.join_segments (draft : Draft) :
    Placeholder.join draft.segments = String.ofList (Print.fill 0 draft.print) := by
  obtain ⟨first, more, same⟩ := Print.exists_segments_eq draft.print
  have chars : draft.segments.map String.toList = first :: more := by
    simp [segments, Function.comp_def, same]
  rw [Placeholder.join, chars, Placeholder.joinChars, Print.joinFrom_segments same]

/-! ## References -/

namespace Markup.Reference

/-- What a reference means that ends just where the text ends. -/
def spells? (inValue : Bool) (reference : Reference) : List Char → Option (List Char)
  | [] => none
  | c :: rest =>
    match reference.step inValue c with
    | .more next => next.spells? inValue rest
    | .done meaning consumed => if consumed = true ∧ rest = [] then some meaning else none

/-- A name is looked up without spelling out the names of the table. -/
theorem named?_cons (c : Char) (name : List Char) :
    named? (c :: name) = ((namesFrom c).find? fun entry => entry.1 == String.ofList (c :: name)).map
      fun entry => entry.2.map Char.ofNat := by
  have same (entry : String × List Nat) :
      (entry.1.toList == c :: name) = (entry.1 == String.ofList (c :: name)) := by
    rw [Bool.eq_iff_iff, beq_iff_eq, beq_iff_eq]
    exact ⟨fun spelled => by rw [← spelled, String.ofList_toList],
      fun spelled => by rw [spelled, String.toList_ofList]⟩
  simp only [named?, same]

/-- The front of a name starts a name. -/
theorem startsName_of_named? {text name meaning : List Char} (found : named? name = some meaning)
    (front : text <+: name) : startsName text = true := by
  cases text with
  | nil => rfl
  | cons c text =>
    obtain ⟨rest, rfl⟩ := front
    obtain ⟨entry, listed, -⟩ := Option.map_eq_some_iff.mp found
    have spelled := List.find?_some listed
    rw [beq_iff_eq] at spelled
    refine List.any_eq_true.mpr ⟨entry, List.mem_of_find?_eq_some listed, ?_⟩
    rw [spelled]
    exact List.isPrefixOf_iff_prefix.mpr (List.prefix_append _ _)

/-- A name with a semicolon is the longest one in itself. -/
theorem resolve_of_named? {name meaning : List Char} (inValue : Bool) (next : Option Char)
    (found : named? (name ++ [';']) = some meaning) :
    resolve inValue (name ++ [';']) next = meaning := by
  have whole : longest? (name ++ [';']) (name ++ [';']).length =
      some (meaning, name ++ [';'], []) := by
    rw [List.length_append, List.length_singleton, longest?, List.take_of_length_le (by simp), found]
    simp
  rw [resolve, whole]
  simp

/-- A name with a semicolon is read to its end. -/
theorem spells?_of_named? (inValue : Bool) (name : List Char) {meaning : List Char}
    (single : ';' ∉ name) (found : named? (name ++ [';']) = some meaning) :
    spells? inValue .start (name ++ [';']) = some meaning := by
  have go (taken rest : List Char) (split : taken ++ rest = name) :
      spells? inValue (.named taken.reverse) (rest ++ [';']) = some meaning := by
    induction rest generalizing taken with
    | nil =>
      rw [List.append_nil] at split
      subst split
      have starts := startsName_of_named? found List.prefix_rfl
      simp [spells?, step, starts, resolve_of_named? inValue none found]
    | cons c rest ih =>
      have starts : startsName (taken ++ [c]) = true :=
        startsName_of_named? found ⟨rest ++ [';'], by simp [← split]⟩
      have other : c ≠ ';' := by
        rintro rfl
        exact single (split ▸ by simp)
      have later := ih (taken ++ [c]) (by simp [split])
      rw [List.reverse_append, List.reverse_singleton, List.singleton_append] at later
      simp [spells?, step, starts, other, later]
  cases name with
  | nil => cases found
  | cons c rest =>
    have starts : startsName [c] = true := startsName_of_named? found ⟨rest ++ [';'], rfl⟩
    have other : c ≠ '#' := by
      rintro rfl
      cases found
    have later := go [c] rest rfl
    rw [List.reverse_singleton] at later
    simp [spells?, step, other, starts, later]

/-- The characters that are escaped, behind the names that are written for them. -/
def escapes : List (List Char × Char) :=
  [(['a', 'm', 'p'], '&'), (['l', 't'], '<'), (['g', 't'], '>'), (['n', 'b', 's', 'p'], '\u00A0'),
    (['q', 'u', 'o', 't'], '"')]

theorem spells?_of_mem_escapes (inValue : Bool) {name : List Char} {c : Char}
    (escaped : (name, c) ∈ escapes) : spells? inValue .start (name ++ [';']) = some [c] := by
  simp only [escapes, List.mem_cons, List.not_mem_nil, or_false, Prod.mk.injEq] at escaped
  obtain ⟨rfl, rfl⟩ | ⟨rfl, rfl⟩ | ⟨rfl, rfl⟩ | ⟨rfl, rfl⟩ | ⟨rfl, rfl⟩ := escaped <;>
    exact spells?_of_named? inValue _ (by decide) ((named?_cons _ _).trans (by decide +kernel))

end Markup.Reference

/-- A character of a text is written as it is or as a reference that means it. -/
theorem escapeText_cases (c : Char) :
    (escapeTextChar c = [c] ∧ c ≠ '&' ∧ c ≠ '<') ∨
      ∃ name, escapeTextChar c = '&' :: name ∧
        Reference.spells? false .start name = some [c] := by
  unfold escapeTextChar
  split
  · exact .inr ⟨['a', 'm', 'p'] ++ [';'], rfl, Reference.spells?_of_mem_escapes false (by decide)⟩
  · exact .inr ⟨['l', 't'] ++ [';'], rfl, Reference.spells?_of_mem_escapes false (by decide)⟩
  · exact .inr ⟨['g', 't'] ++ [';'], rfl, Reference.spells?_of_mem_escapes false (by decide)⟩
  · exact .inr ⟨['n', 'b', 's', 'p'] ++ [';'], rfl, Reference.spells?_of_mem_escapes false (by decide)⟩
  · next ampersand less _ _ => exact .inl ⟨rfl, ampersand, less⟩

theorem escapeValue_cases (c : Char) :
    (escapeValueChar c = [c] ∧ c ≠ '&' ∧ c ≠ '"') ∨
      ∃ name, escapeValueChar c = '&' :: name ∧
        Reference.spells? true .start name = some [c] := by
  unfold escapeValueChar
  split
  · exact .inr ⟨['a', 'm', 'p'] ++ [';'], rfl, Reference.spells?_of_mem_escapes true (by decide)⟩
  · exact .inr ⟨['q', 'u', 'o', 't'] ++ [';'], rfl, Reference.spells?_of_mem_escapes true (by decide)⟩
  · exact .inr ⟨['n', 'b', 's', 'p'] ++ [';'], rfl, Reference.spells?_of_mem_escapes true (by decide)⟩
  · next ampersand quote _ => exact .inl ⟨rfl, ampersand, quote⟩

namespace Markup.LexerState

/-- A reference in text is read as what it means. -/
theorem advance_contentReference (mode : TextMode) {reference : Reference} {name meaning : List Char}
    (spelled : reference.spells? false name = some meaning) :
    (contentReference mode reference).advance name = saying (.content mode) meaning := by
  induction name generalizing reference with
  | nil => cases spelled
  | cons c name ih =>
    unfold Reference.spells? at spelled
    rw [advance_cons, step]
    split at spelled
    · next next read =>
      rw [read]
      simp [silently, ih spelled, saying]
    · next text consumed read =>
      split at spelled
      · next ends =>
        obtain ⟨rfl, rfl⟩ := ends
        obtain rfl := Option.some.inj spelled
        rw [read]
        rfl
      · cases spelled

theorem advance_valueReference (quote : Option Char) (attr : OpenAttribute) {reference : Reference}
    {name meaning : List Char} (spelled : reference.spells? true name = some meaning) :
    (valueReference quote attr reference).advance name =
      silently (inValue quote (meaning.foldl pushValue attr)) := by
  induction name generalizing reference with
  | nil => cases spelled
  | cons c name ih =>
    unfold Reference.spells? at spelled
    rw [advance_cons]
    split at spelled
    · next next read =>
      have after : (valueReference quote attr reference).step c =
          silently (valueReference quote attr next) := by
        simp only [step, read]
      simp [after, silently, ih spelled]
    · next text consumed read =>
      split at spelled
      · next ends =>
        obtain ⟨rfl, rfl⟩ := ends
        obtain rfl := Option.some.inj spelled
        have after : (valueReference quote attr reference).step c =
            silently (inValue quote (text.foldl pushValue attr)) := by
          simp only [step, read, if_true]
        rw [after]
        rfl
      · cases spelled

theorem run_contentReference (mode : TextMode) {reference : Reference} {name meaning : List Char}
    (spelled : reference.spells? false name = some meaning) (rest : List Char) :
    (contentReference mode reference).run (name ++ rest) =
      .text (String.ofList meaning) :: (content mode).run rest := by
  rw [run_append, advance_contentReference mode spelled]
  rfl

theorem run_valueReference (quote : Option Char) (attr : OpenAttribute) {reference : Reference}
    {name meaning : List Char} (spelled : reference.spells? true name = some meaning)
    (rest : List Char) :
    (valueReference quote attr reference).run (name ++ rest) =
      (inValue quote (meaning.foldl pushValue attr)).run rest := by
  rw [run_append, advance_valueReference quote attr spelled]
  rfl

/-- A text that is escaped is read as it was, character by character, where references are read. -/
theorem advance_escaped {mode : TextMode}
    (refers : (content mode).step '&' = silently (.contentReference mode .start)) {text : List Char}
    (speaks : ∀ c ∈ text, c ≠ '&' → c ≠ '<' → (content mode).step c = saying (.content mode) [c]) :
    (content mode).advance (text.flatMap escapeTextChar) =
      (.content mode, text.map fun c => .text (String.ofList [c])) := by
  induction text with
  | nil => rfl
  | cons c text ih =>
    rw [List.forall_mem_cons] at speaks
    rw [List.flatMap_cons, advance_append]
    obtain ⟨same, ampersand, less⟩ | ⟨name, same, spelled⟩ := escapeText_cases c
    · simp [same, advance_cons, speaks.1 ampersand less, saying, ih speaks.2, advance, silently]
    · simp [same, advance_cons, refers, silently, advance_contentReference mode spelled, saying,
        ih speaks.2]

theorem advance_escapeText (text : List Char) :
    (content .data).advance (text.flatMap escapeTextChar) =
      (.content .data, text.map fun c => .text (String.ofList [c])) :=
  advance_escaped rfl fun c _ ampersand less => by
    simp [LexerState.step, stepContent, ampersand, less]

/-- A value that is escaped is read as it was. -/
theorem advance_escapeValue (attr : OpenAttribute) {value : List Char}
    (visible_ : ∀ c ∈ value, c ≠ '\x00') :
    (quotedValue '"' attr).advance (value.flatMap escapeValueChar) =
      silently (.quotedValue '"' { attr with value := value.reverse ++ attr.value }) := by
  induction value generalizing attr with
  | nil => rfl
  | cons c value ih =>
    rw [List.forall_mem_cons] at visible_
    have later : (quotedValue '"' { attr with value := c :: attr.value }).advance _ =
        silently (.quotedValue '"' { attr with value := value.reverse ++ c :: attr.value }) :=
      ih _ visible_.2
    rw [List.flatMap_cons, advance_append]
    obtain ⟨same, ampersand, quote⟩ | ⟨name, same, spelled⟩ := escapeValue_cases c
    · have step : (quotedValue '"' attr).step c = silently (.quotedValue '"' (pushValue attr c)) := by
        simp [LexerState.step, stepQuotedValue, ampersand, quote, LexerState.visible, visible_.1]
      simp [same, advance_cons, step, silently, advance, pushValue, later]
    · have step : (quotedValue '"' attr).step '&' = silently (.valueReference (some '"') attr .start) :=
        rfl
      simp [same, advance_cons, step, silently, advance_valueReference (some '"') attr spelled,
        inValue, pushValue, later]

/-! ## Tags -/

theorem isBlank_of_goesOn {c : Char} (goesOn : endsWord c = false) : isBlank c = false := by
  simp only [endsWord, Bool.or_eq_false_iff] at goesOn
  exact goesOn.1.1

theorem nameChar_of_isNameChar {c : Char} (name : isNameChar c = true) : nameChar c = c.toLower := by
  refine if_neg fun zero => ?_
  exact ne_of_isNameChar name '\x00' rfl (eq_of_toLower_eq zero rfl)

theorem endsWord_of_isNameChar {c : Char} (name : isNameChar c = true) : endsWord c = false := by
  simp [endsWord, isBlank_of_isNameChar name, ne_of_isNameChar name '/' rfl,
    ne_of_isNameChar name '>' rfl]

theorem isTagName_of_isElementName {name : List Char} (named : isElementName name = true) :
    IsTagName name := by
  have small := toLower_of_isElementName named
  obtain ⟨first, rest, same, alpha, -⟩ :=
    exists_of_isAttributeName (isAttributeName_of_isElementName named)
  refine ⟨⟨first, rest, same, alpha⟩, fun c member => ?_⟩
  have part := forall_of_isAttributeName (isAttributeName_of_isElementName named) c member
  simp [isNamePart, endsWord_of_isNameChar part, ne_of_isNameChar part '\x00' rfl, small c member]

/-- The characters of a tag name are collected. -/
theorem advance_name (tag : OpenTag) {text : List Char} (name : ∀ c ∈ text, isNamePart c = true) :
    (tagName tag).advance text = silently (.tagName { tag with name := text.reverse ++ tag.name }) := by
  induction text generalizing tag with
  | nil => rfl
  | cons c text ih =>
    rw [List.forall_mem_cons] at name
    have step : (tagName tag).step c = silently (.tagName { tag with name := c :: tag.name }) := by
      simp [LexerState.step, endsWord_of_isNamePart name.1, nameChar_of_isNamePart name.1]
    rw [advance_cons, step]
    simp [silently, ih _ name.2]

/-- The characters of the name of an attribute are collected as they are kept. -/
theorem advance_lastName (attr : OpenAttribute) {text : List Char}
    (goesOn : ∀ c ∈ text, endsWord c = false) (plain : '=' ∉ text) :
    (attributeName attr).advance text =
      silently (.attributeName { attr with name := (text.map nameChar).reverse ++ attr.name }) := by
  induction text generalizing attr with
  | nil => rfl
  | cons c text ih =>
    rw [List.forall_mem_cons] at goesOn
    rw [List.mem_cons, not_or] at plain
    have step : (attributeName attr).step c =
        silently (.attributeName { attr with name := nameChar c :: attr.name }) := by
      simp [LexerState.step, isBlank_of_goesOn goesOn.1, Ne.symm plain.1, goesOn.1]
    rw [advance_cons, step]
    simp [silently, ih _ goesOn.2 plain.2]

/-- The front of a tag up to the end of its name. -/
theorem advance_openTag {name : String} (named : IsTagName name.toList) :
    (content .data).advance ('<' :: name.toList) =
      silently (.tagName ⟨false, name.toList.reverse, []⟩) := by
  obtain ⟨⟨first, rest, same, alpha⟩, parts⟩ := named
  rw [same, List.forall_mem_cons] at parts
  have letter := isNameChar_of_isAlpha alpha
  have opened : (content .data).step '<' = silently (.lessThan .data) := rfl
  have begun : (lessThan .data).step first = silently (.tagName ⟨false, [first], []⟩) := by
    simp [LexerState.step, stepLessThan, ne_of_isNameChar letter '/' rfl,
      ne_of_isNameChar letter '!' rfl, ne_of_isNameChar letter '?' rfl, alpha,
      toLower_of_isNamePart parts.1]
  rw [same, advance_cons, opened, silently, advance_cons, begun, silently, advance_name _ parts.2]
  simp [silently]

theorem advance_endTagHtml {name : String} (named : IsTagName name.toList) :
    (content .data).advance (endTagHtml name) = (.content .data, [.endTag name]) := by
  obtain ⟨⟨first, rest, same, alpha⟩, parts⟩ := named
  rw [same, List.forall_mem_cons] at parts
  have opened : (content .data).step '<' = silently (.lessThan .data) := rfl
  have closing : (lessThan .data).step '/' = silently (.endTagOpen .data) := rfl
  have begun : (endTagOpen .data).step first = silently (.tagName ⟨true, [first], []⟩) := by
    simp [LexerState.step, stepEndTagOpen, alpha, toLower_of_isNamePart parts.1]
  have whole : String.ofList (first :: rest) = name := by rw [← same, String.ofList_toList]
  have ends (read : List Char) : (tagName ⟨true, read, []⟩).step '>' =
      (.content .data, [.endTag (String.ofList read.reverse)]) := rfl
  rw [endTagHtml, same, List.cons_append, List.cons_append, List.cons_append, advance_cons, opened,
    silently, advance_cons, closing, silently, advance_cons, begun, silently, advance_append,
    advance_name _ parts.2, silently, advance_cons, ends]
  simp [advance, silently, whole]

/-- Where a start tag goes on with a blank or ends. -/
structure InTag (state : LexerState) (tag : OpenTag) : Prop where
  blank : state.step ' ' = silently (.beforeAttributeName tag)
  greater : state.step '>' = closeTag tag false

theorem inTag_tagName (tag : OpenTag) : (tagName tag).InTag tag :=
  ⟨rfl, rfl⟩

theorem inTag_afterQuotedValue (tag : OpenTag) : (afterQuotedValue tag).InTag tag :=
  ⟨rfl, rfl⟩

/-- An attribute up to its value. -/
theorem InTag.advance_attribute {state : LexerState} {tag : OpenTag} (inTag : state.InTag tag)
    {name : List Char} (filled : name ≠ []) (goesOn : ∀ c ∈ name, endsWord c = false)
    (plain : '=' ∉ name.tail) :
    state.advance (' ' :: (name ++ ['=', '"'])) =
      silently (.quotedValue '"' ⟨tag, (name.map nameChar).reverse, []⟩) := by
  obtain _ | ⟨first, rest⟩ := name
  · exact absurd rfl filled
  rw [List.forall_mem_cons] at goesOn
  have first' := goesOn.1
  simp only [endsWord, Bool.or_eq_false_iff, beq_eq_false_iff_ne] at first'
  have begun : (beforeAttributeName tag).step first =
      silently (.attributeName ⟨tag, [nameChar first], []⟩) := by
    simp [LexerState.step, stepBeforeAttributeName, first']
  have quoted (attr : OpenAttribute) :
      (attributeName attr).advance ['=', '"'] = silently (.quotedValue '"' attr) := rfl
  rw [advance_cons, inTag.blank, silently, List.cons_append, advance_cons, begun, silently,
    advance_append, advance_lastName _ goesOn.2 plain, silently, quoted]
  simp [silently]

end Markup.LexerState

/-! ## Tokens -/

/-- The attributes as they are read: with names in small letters, and with placeholders for dynamic
values, the first of which has the given index. -/
def markedAttributes (next : Nat) : List (String × Option String) → List (String × String)
  | [] => []
  | (name, some value) :: rest => (lowerCase name, value) :: markedAttributes next rest
  | (name, none) :: rest =>
    (lowerCase name, Placeholder.text next) :: markedAttributes (next + 1) rest

namespace Draft

/-- The tokens of the markup of a draft. -/
def tokens (next : Nat) : Draft → List Token
  | done => []
  | element name attributes children rest =>
    let inside := next + (dynamicAttributes attributes).length
    .startTag name (markedAttributes next attributes) false ::
      ((if isVoid name then [] else children.tokens inside ++ [.endTag name]) ++
        rest.tokens (inside + children.count))
  | text data rest => .text data :: rest.tokens next
  | hole rest => .text (Placeholder.text next) :: rest.tokens (next + 1)

end Draft

namespace Markup.LexerState

/-- An attribute is read with its value, or with the next placeholder. -/
theorem InTag.run_attribute {state : LexerState} {tag : OpenTag} (inTag : state.InTag tag)
    {name : String} {value : Option String} (printable : isPrintableAttribute (name, value) = true)
    (next : Nat) (rest : Print) :
    ∃ after : LexerState, state.run (Print.fill next (attributePrint (name, value) ++ rest)) =
        after.run (Print.fill (if value.isNone then next + 1 else next) rest) ∧
      after.InTag { tag with
        attributes := (lowerCase name, value.getD (Placeholder.text next)) :: tag.attributes } := by
  rw [isPrintableAttribute_iff] at printable
  have parts := forall_of_isAttributeName printable.1
  have small : String.ofList (name.toList.map nameChar) = lowerCase name := by
    rw [List.map_congr_left fun c member => nameChar_of_isNameChar (parts c member), lowerCase,
      ← String.toList_inj, String.toList_ofList, String.toList_map]
  have filled : name.toList ≠ [] := by
    obtain ⟨first, rest, same, -⟩ := exists_of_isAttributeName printable.1
    simp [same]
  have read := inTag.advance_attribute filled
    (fun c member => endsWord_of_isNameChar (parts c member))
    (fun member => ne_of_isNameChar (parts _ (List.mem_of_mem_tail member)) '=' rfl rfl)
  have front : attributePrint (name, value) ++ rest =
      Print.ofChars (' ' :: (name.toList ++ ['=', '"'])) ++ (valuePrint value ++ some '"' :: rest) := by
    simp [attributePrint, Print.ofChars]
  have quoted (attr : OpenAttribute) (text : List Char) :
      (quotedValue '"' attr).run ('"' :: text) = (afterQuotedValue (keepAttribute attr)).run text := rfl
  refine ⟨.afterQuotedValue { tag with
    attributes := (lowerCase name, value.getD (Placeholder.text next)) :: tag.attributes }, ?_,
    inTag_afterQuotedValue _⟩
  rw [front, Print.fill_ofChars_append, run_append, read, silently,
    List.nil_append]
  cases value with
  | none =>
    -- There is no quote and no reference in a placeholder, so it is read as it stands.
    have calm := Wording.placeholders.calm next
    rw [Wording.word_placeholders] at calm
    show (quotedValue '"' _).run (Placeholder.chars next ++ '"' :: Print.fill (next + 1) rest) = _
    rw [run_append, advance_quotedValue rfl _ calm, silently, List.nil_append, quoted]
    simp [keepAttribute, small, Placeholder.text]
  | some data =>
    -- What has been escaped is decoded on the way.
    have visible_ := fun c member => ((isPrintable_iff.mp (printable.2 data rfl)).1 c member).1
    rw [valuePrint, Print.fill_ofChars_append, run_append, advance_escapeValue _ visible_, silently,
      List.nil_append, Print.fill, quoted]
    simp [keepAttribute, small]

theorem InTag.run_attributes {state : LexerState} {tag : OpenTag} (inTag : state.InTag tag)
    {attributes : List (String × Option String)}
    (printable : ∀ pair ∈ attributes, isPrintableAttribute pair = true) (next : Nat) (rest : Print) :
    ∃ after : LexerState, state.run (Print.fill next (attributes.flatMap attributePrint ++ rest)) =
        after.run (Print.fill (next + (dynamicAttributes attributes).length) rest) ∧
      after.InTag { tag with
        attributes := (markedAttributes next attributes).reverse ++ tag.attributes } := by
  induction attributes generalizing state tag next with
  | nil => exact ⟨state, rfl, inTag⟩
  | cons pair attributes ih =>
    obtain ⟨name, value⟩ := pair
    rw [List.forall_mem_cons] at printable
    obtain ⟨between, here, inTag⟩ := inTag.run_attribute printable.1 next
      (attributes.flatMap attributePrint ++ rest)
    rw [List.flatMap_cons, List.append_assoc, here]
    cases value with
    | none =>
      obtain ⟨after, there, inTag⟩ := ih inTag printable.2 (next + 1)
      refine ⟨after, ?_, by simpa [markedAttributes] using inTag⟩
      have total : next + (dynamicAttributes ((name, none) :: attributes)).length =
          next + 1 + (dynamicAttributes attributes).length := by
        simp [dynamicAttributes]
        omega
      rw [Option.isNone_none, if_pos rfl, there, total]
    | some data =>
      obtain ⟨after, there, inTag⟩ := ih inTag printable.2 next
      exact ⟨after, there, by simpa [markedAttributes] using inTag⟩

/-- The end of a start tag of an element without raw text. -/
theorem InTag.run_greater {state : LexerState} {name : String}
    {attributes : List (String × String)}
    (inTag : state.InTag ⟨false, name.toList.reverse, attributes.reverse⟩)
    (plain : name ∉ rawTextElements) (text : List Char) :
    state.run ('>' :: text) = .startTag name attributes false :: (content .data).run text := by
  have mode : modeOf name false = .data := by simp [modeOf, plain]
  rw [run, inTag.greater]
  simp [closeTag, mode]

end Markup.LexerState

theorem Interchangeable.trans {first second third : List Token} (before : Interchangeable first second)
    (after : Interchangeable second third) : Interchangeable first third :=
  fun builder => (before builder).trans (after builder)

theorem Interchangeable.cons (token : Token) {tokens tokens' : List Token}
    (after : Interchangeable tokens tokens') : Interchangeable (token :: tokens) (token :: tokens') :=
  fun builder => after (builder.push token)

/-- A draft is read as the tokens that it is made of, whatever follows. -/
theorem Draft.run_fill {draft : Draft} (proper : draft.Proper) (next : Nat) (rest : Print) :
    Interchangeable ((LexerState.content .data).run (Print.fill next (draft.print ++ rest)))
      (draft.tokens next ++
        (LexerState.content .data).run (Print.fill (next + draft.count) rest)) := by
  induction draft generalizing next rest with
  | done => exact .refl _
  | element name attributes children more ihChildren ihMore =>
    obtain ⟨⟨named, plain, void⟩, ⟨printable, -⟩, below, behind⟩ := proper
    have tagName := LexerState.isTagName_of_isElementName named
    have front : (element name attributes children more).print ++ rest =
        Print.ofChars ('<' :: name.toList) ++ (attributes.flatMap attributePrint ++ some '>' ::
          ((if isVoid name then [] else children.print ++ Print.ofChars (endTagHtml name)) ++
            (more.print ++ rest))) := by
      simp [print, Print.ofChars]
    -- The tag up to its last character, then what is inside, and then what is behind the element.
    obtain ⟨state, read, inTag⟩ :=
      (LexerState.inTag_tagName ⟨false, name.toList.reverse, []⟩).run_attributes printable next
        (some '>' :: ((if isVoid name then [] else children.print ++ Print.ofChars (endTagHtml name)) ++
          (more.print ++ rest)))
    rw [List.append_nil] at inTag
    have total : next + (element name attributes children more).count =
        next + (dynamicAttributes attributes).length + children.count + more.count := by
      simp only [count]
      omega
    rw [front, Print.fill_ofChars_append, LexerState.run_append, LexerState.advance_openTag tagName,
      LexerState.silently, List.nil_append, read, Print.fill, inTag.run_greater plain, tokens, total]
    rw [List.cons_append]
    apply Interchangeable.cons
    have later (index : Nat) := ihMore behind index rest
    split
    · next isVoid_ =>
      rw [void isVoid_]
      exact later _
    · -- What is behind the children begins with the end tag.
      have inside := ihChildren below (next + (dynamicAttributes attributes).length)
        (Print.ofChars (endTagHtml name) ++ (more.print ++ rest))
      rw [Print.fill_ofChars_append, LexerState.run_append,
        LexerState.advance_endTagHtml tagName] at inside
      simp only [List.append_assoc]
      apply inside.trans
      exact (Interchangeable.refl _).append ((Interchangeable.refl [.endTag name]).append (later _))
  | text data more ih =>
    rw [print, List.append_assoc, Print.fill_ofChars_append, LexerState.run_append,
      LexerState.advance_escapeText]
    have text := Interchangeable.texts data.toList
    rw [String.ofList_toList] at text
    exact text.append (ih proper.2 next rest)
  | hole more ih =>
    have total : next + (hole more).count = next + 1 + more.count := by
      simp only [count]
      omega
    show Interchangeable ((LexerState.content .data).run
      (Placeholder.chars next ++ Print.fill (next + 1) (more.print ++ rest))) _
    have read := LexerState.advance_content_word .placeholders next .data
    rw [Wording.word_placeholders] at read
    rw [LexerState.run_append, read, total]
    exact (Interchangeable.texts _).append (ih proper (next + 1) rest)

/-! ## Ends of lines -/

/-- A character that no reference is made of comes out of a text only if it is in it. -/
theorem notMem_flatMap_escape {escape : Char → List Char} {special : Char} {text : List Char}
    (absent : special ∉ text) (own : ∀ c, special ∈ escape c → c = special) :
    special ∉ text.flatMap escape := by
  intro member
  obtain ⟨c, listed, member⟩ := List.mem_flatMap.mp member
  exact absent (own c member ▸ listed)

theorem eq_of_mem_escapeText {special : Char} (foreign : special ∉ "&amp;&lt;&gt;&nbsp;".toList)
    (c : Char) (member : special ∈ escapeTextChar c) : c = special := by
  have within {reference : List Char} (part : reference ⊆ "&amp;&lt;&gt;&nbsp;".toList)
      (member : special ∈ reference) : c = special := absurd (part member) foreign
  unfold escapeTextChar at member
  split at member
  · exact within (by decide) member
  · exact within (by decide) member
  · exact within (by decide) member
  · exact within (by decide) member
  · exact (List.mem_singleton.mp member).symm

theorem eq_of_mem_escapeValue {special : Char} (foreign : special ∉ "&amp;&quot;&nbsp;".toList)
    (c : Char) (member : special ∈ escapeValueChar c) : c = special := by
  have within {reference : List Char} (part : reference ⊆ "&amp;&quot;&nbsp;".toList)
      (member : special ∈ reference) : c = special := absurd (part member) foreign
  unfold escapeValueChar at member
  split at member
  · exact within (by decide) member
  · exact within (by decide) member
  · exact within (by decide) member
  · exact (List.mem_singleton.mp member).symm

namespace Print

/-- There are no carriage returns in what is printed. -/
def Smooth (print : Print) : Prop :=
  some '\r' ∉ print

theorem smooth_ofChars {text : List Char} (smooth : '\r' ∉ text) : Smooth (ofChars text) := by
  intro member
  obtain ⟨c, listed, same⟩ := List.mem_map.mp member
  cases same
  exact smooth listed

theorem smooth_name {name : List Char} (valid : isAttributeName name = true) :
    Smooth (ofChars name) :=
  smooth_ofChars fun member => absurd (forall_of_isAttributeName valid _ member) (by decide)

theorem smooth_attribute {pair : String × Option String}
    (printable : isPrintableAttribute pair = true) : Smooth (attributePrint pair) := by
  obtain ⟨name, value⟩ := pair
  rw [isPrintableAttribute_iff] at printable
  have value' : Smooth (valuePrint value) := by
    cases value with
    | none => exact fun member => absurd (List.mem_singleton.mp member) (by decide)
    | some data =>
      have smooth : '\r' ∉ data.toList := fun member =>
        ((isPrintable_iff.mp (printable.2 data rfl)).1 _ member).2 rfl
      exact smooth_ofChars (notMem_flatMap_escape smooth (eq_of_mem_escapeValue (by decide)))
  have name' := smooth_name printable.1
  simp only [Smooth, attributePrint, List.mem_cons, List.mem_append, not_or] at name' value' ⊢
  exact ⟨by decide, name', by decide, by decide, value', by decide, List.not_mem_nil⟩

theorem return_notMem_fill {print : Print} (smooth : Smooth print) (next : Nat) :
    '\r' ∉ fill next print := by
  induction print generalizing next with
  | nil => exact List.not_mem_nil
  | cons glyph rest ih =>
    rw [Smooth, List.mem_cons, not_or] at smooth
    cases glyph with
    | none =>
      rw [fill, List.mem_append, not_or]
      refine ⟨fun member => ?_, ih smooth.2 _⟩
      exact ((Wording.placeholders.calm next).forall _ member).elim (by decide) (by decide)
    | some c =>
      rw [fill, List.mem_cons, not_or]
      exact ⟨fun same => smooth.1 (congrArg some same), ih smooth.2 _⟩

end Print

theorem Draft.smooth_print {draft : Draft} (proper : draft.Proper) : Print.Smooth draft.print := by
  induction draft with
  | done => exact List.not_mem_nil
  | element name attributes children rest ihChildren ihRest =>
    obtain ⟨⟨named, -, -⟩, ⟨printable, -⟩, below, behind⟩ := proper
    have name' := Print.smooth_name (isAttributeName_of_isElementName named)
    have attributes' : some '\r' ∉ attributes.flatMap attributePrint := by
      intro member
      obtain ⟨pair, listed, member⟩ := List.mem_flatMap.mp member
      exact Print.smooth_attribute (printable pair listed) member
    have inside := ihChildren below
    have after := ihRest behind
    have children' : some '\r' ∉
        if isVoid name then [] else children.print ++ Print.ofChars (endTagHtml name) := by
      split
      · exact List.not_mem_nil
      · simp only [Print.Smooth, Print.ofChars, List.mem_map] at name' inside
        simpa [Print.ofChars, endTagHtml, inside] using name'
    simp only [Print.Smooth, print, List.mem_cons, List.mem_append, not_or] at name' after ⊢
    exact ⟨by decide, name', attributes', by decide, children', after⟩
  | text data rest ih =>
    have smooth : '\r' ∉ data.toList := fun member =>
      ((isPrintable_iff.mp proper.1.2.1).1 _ member).2 rfl
    have text := Print.smooth_ofChars (notMem_flatMap_escape smooth (eq_of_mem_escapeText (by decide)))
    have after := ih proper.2
    simp only [Print.Smooth, print, List.mem_append, not_or] at text after ⊢
    exact ⟨text, after⟩
  | hole rest ih =>
    have after := ih proper
    simp only [Print.Smooth, print, List.mem_cons, not_or] at after ⊢
    exact ⟨by decide, after⟩

/-! ## Nesting -/

namespace Draft

/-- The forest of a draft as its markup has it: with placeholders, and with texts still apart. -/
def marked (space : Option String) (next : Nat) : Draft → Forest
  | done => []
  | element name attributes children rest =>
    let inside := next + (dynamicAttributes attributes).length
    .element name (spaceOf name space) (sortAttributes (markedAttributes next attributes))
        (children.marked (spaceOf name space) inside) ::
      rest.marked space (inside + children.count)
  | text data rest => .text data :: rest.marked space next
  | hole rest => .text (Placeholder.text next) :: rest.marked space (next + 1)

end Draft

/-- Puts a node behind nodes given with the last one first, joining texts. -/
def pushNode (nodes : List Node) : Node → List Node
  | .text data => Builder.appendText data nodes
  | tree => tree.merge :: nodes

/-- Sibling nodes behind nodes given with the last one first, of which a text joins one behind it. -/
def joinBehind (nodes : List Node) (rest : Forest) : Forest :=
  match nodes with
  | .text data :: others => others.reverse ++ joinText data rest
  | nodes => nodes.reverse ++ rest

theorem joinBehind_nil {nodes : List Node}
    (filled : ∀ data others, nodes = .text data :: others → data ≠ "") :
    joinBehind nodes [] = nodes.reverse := by
  unfold joinBehind
  split
  · next data others => simp [joinText, filled data others rfl]
  · exact List.append_nil _

theorem joinBehind_appendText (data : String) (nodes : List Node) (rest : Forest) :
    joinBehind (Builder.appendText data nodes) rest = joinBehind nodes (joinText data rest) := by
  unfold Builder.appendText
  by_cases empty : data = ""
  · simp [empty]
  rw [if_neg empty]
  cases nodes with
  | nil => rfl
  | cons tree others =>
    cases tree with
    | text before => simp only [joinBehind, joinText_append]
    | _ => rfl

theorem joinBehind_cons {tree : Node} (other : tree.isText = false) {nodes : List Node}
    (filled : ∀ data others, nodes = .text data :: others → data ≠ "") (rest : Forest) :
    joinBehind (tree :: nodes) rest = joinBehind nodes (tree :: rest) := by
  have alone (tree : Node) (other : tree.isText = false) (nodes : List Node) (rest : Forest) :
      joinBehind (tree :: nodes) rest = nodes.reverse ++ tree :: rest := by
    cases tree with
    | text data => cases other
    | _ => simp [joinBehind]
  rw [alone tree other]
  unfold joinBehind
  split
  · next data others =>
    have joined : joinText data (tree :: rest) = .text data :: tree :: rest := by
      unfold joinText
      rw [if_neg (filled data others rfl)]
      cases tree with
      | text data => cases other
      | _ => rfl
    rw [joined]
    simp
  · rfl

/-- Nodes that are put one behind another are joined. -/
theorem reverse_foldl_pushNode (trees : Forest) {nodes : List Node}
    (filled : ∀ data others, nodes = .text data :: others → data ≠ "") :
    (trees.foldl pushNode nodes).reverse = joinBehind nodes (Forest.merge trees) := by
  induction trees generalizing nodes with
  | nil => exact (joinBehind_nil filled).symm
  | cons tree trees ih =>
    have apart (other : tree.merge.isText = false) :
        (trees.foldl pushNode (tree.merge :: nodes)).reverse =
          joinBehind nodes (tree.merge :: Forest.merge trees) := by
      rw [ih, joinBehind_cons other filled]
      rintro data others same
      rw [(List.cons.inj same).1] at other
      cases other
    cases tree with
    | element | comment => exact apart rfl
    | text data =>
      rw [List.foldl_cons, pushNode, ih, joinBehind_appendText, merge_text]
      unfold Builder.appendText
      intro joined others same
      split at same
      · exact filled joined others same
      next notEmpty =>
      split at same
      · next before rest =>
        obtain ⟨whole, -⟩ := List.cons.inj same
        cases whole
        intro empty
        rw [← String.toList_inj, String.toList_append, String.toList_empty,
          List.append_eq_nil_iff] at empty
        exact notEmpty (String.toList_inj.mp empty.2)
      · cases same
        exact notEmpty

namespace Markup.Builder

/-- The namespace that children are in. -/
def space (builder : Builder) : Option String :=
  builder.openElements.head?.bind (·.space)

theorem space_edit (builder : Builder) (change : List Node → List Node) :
    (builder.edit change).space = builder.space := by
  obtain ⟨opened, roots⟩ := builder
  cases opened <;> rfl

/-- The end tag of the innermost element closes it. -/
theorem push_endTag_head (element : OpenElement) (outer : List OpenElement) (roots : List Node) :
    Builder.push ⟨element :: outer, roots⟩ (.endTag element.name) =
      Builder.append ⟨outer, roots⟩ element.close := by
  simp [push, List.findIdx?_cons, closeMany, closeInnermost]

end Markup.Builder

/-- The tokens of a draft are nested as it is. -/
theorem Draft.foldl_push {draft : Draft} (proper : draft.Proper) (next : Nat) (builder : Builder) :
    (draft.tokens next).foldl Builder.push builder =
      builder.edit fun nodes => (draft.marked builder.space next).foldl pushNode nodes := by
  induction draft generalizing next builder with
  | done =>
    obtain ⟨opened, roots⟩ := builder
    cases opened <;> rfl
  | element name attributes children rest ihChildren ihRest =>
    obtain ⟨⟨-, -, void⟩, -, below, behind⟩ := proper
    have inside := ihChildren below (next + (dynamicAttributes attributes).length)
    have joined (trees : Forest) : (trees.foldl pushNode []).reverse = Forest.merge trees :=
      reverse_foldl_pushNode trees nofun
    -- Either way, the element comes behind what there is.
    have whole : (Token.startTag name (markedAttributes next attributes) false :: if isVoid name then []
        else children.tokens (next + (dynamicAttributes attributes).length) ++ [.endTag name]).foldl
          Builder.push builder = builder.append (.element name (spaceOf name builder.space)
            (sortAttributes (markedAttributes next attributes))
            (Forest.merge (children.marked (spaceOf name builder.space)
              (next + (dynamicAttributes attributes).length)))) := by
      rw [List.foldl_cons, Builder.push]
      by_cases isVoid_ : isVoid name = true
      · rw [void isVoid_]
        simp only [isVoid_, Bool.or_true, if_true]
        rfl
      · rw [if_neg isVoid_]
        simp only [isVoid_, Bool.or_false, Bool.false_eq_true, if_false]
        rw [List.foldl_append, inside, ← joined]
        exact Builder.push_endTag_head _ _ _
    rw [tokens, ← List.cons_append, List.foldl_append, whole, ihRest behind, Builder.append,
      Builder.space_edit, Interchangeable.edit_edit]
    rfl
  | text data rest ih =>
    rw [tokens, List.foldl_cons, ih proper.2, Builder.push, Builder.space_edit,
      Interchangeable.edit_edit]
    rfl
  | hole rest ih =>
    rw [tokens, List.foldl_cons, ih proper, Builder.push, Builder.space_edit,
      Interchangeable.edit_edit]
    rfl

/-- The markup of a draft is parsed to the forest of the draft with placeholders. -/
theorem Draft.parse_join {draft : Draft} (proper : draft.Proper) :
    Forest.parse (Placeholder.join draft.segments) = Forest.merge (draft.marked none 0) := by
  have smooth : normalizeLines (Print.fill 0 draft.print) = Print.fill 0 draft.print := by
    have same := normalizeLines_append (Print.return_notMem_fill (smooth_print proper) 0) []
    rwa [List.append_nil, normalizeLines, List.append_nil] at same
  have read := Draft.run_fill proper 0 [] .empty
  have ends : (LexerState.content .data).run (Print.fill (0 + draft.count) []) = [] := rfl
  rw [List.append_nil, ends, List.append_nil, foldl_push proper] at read
  rw [Forest.parse, Forest.ofTokens, Markup.tokens, join_segments, String.toList_ofList, smooth]
  show Builder.finish (List.foldl _ _ ((LexerState.content .data).run _)) = _
  rw [read]
  exact reverse_foldl_pushNode _ (by simp [Builder.empty])

end LiveMarkup
