import LiveMarkup.Proofs.Printing.Legible

/-! # Reading a forest that is written

The markup of a legible forest is parsed to that forest again, with one exception: a text in an
element whose text has no character references is written with references all the same, so that these
become part of it (`Forest.parse_html`).  Nothing changes just if there is nothing to escape in such
texts (`Forest.reread_eq_self_iff`).

Raw text holds no less-than sign once it is escaped, so that the text mode lasts until the end tag
(`advance_bare`). -/

namespace LiveMarkup

open Markup

namespace Markup

/-! ## What is read -/

/-- The element has raw text in which no character references are read. -/
def isLiteral (name : String) : Bool :=
  rawTextElements.contains name && !escapableElements.contains name

/-- A text with its special characters as references. -/
def escapeText (data : String) : String :=
  String.ofList (data.toList.flatMap escapeTextChar)

mutual

/-- What a node is read as where it is written, in an element with or without literal text. -/
def Node.reread (literal : Bool) : Node → Node
  | .element name space attributes children =>
    .element name space attributes (Forest.reread (isLiteral name) children)
  | .text data => .text (if literal then escapeText data else data)
  | .comment data => .comment data

/-- What sibling nodes are read as. -/
def Forest.reread (literal : Bool) : List Node → List Node
  | [] => []
  | node :: rest => node.reread literal :: Forest.reread literal rest

end

mutual

/-- The tokens that a node is built of. -/
def Node.tokens : Node → List Token
  | .element name _ attributes children =>
    .startTag name attributes false ::
      if isVoid name then [] else Forest.tokens children ++ [.endTag name]
  | .text data => [.text data]
  | .comment data => [.comment data]

/-- The tokens that sibling nodes are built of. -/
def Forest.tokens : List Node → List Token
  | [] => []
  | node :: rest => node.tokens ++ Forest.tokens rest

end

/-! ## Texts that stay as they are -/

/-- The characters that are written as references in a text. -/
def isSpecial (c : Char) : Bool :=
  c == '&' || c == '<' || c == '>' || c == '\u00A0'

mutual

/-- There is nothing to escape in literal texts. -/
def Node.Verbatim (literal : Bool) : Node → Prop
  | .element name _ _ children => Forest.Verbatim (isLiteral name) children
  | .text data => literal = true → ∀ c ∈ data.toList, isSpecial c = false
  | .comment _ => True

/-- There is nothing to escape in the literal texts of sibling nodes. -/
def Forest.Verbatim (literal : Bool) : List Node → Prop
  | [] => True
  | node :: rest => node.Verbatim literal ∧ Forest.Verbatim literal rest

end

theorem escapeTextChar_cases (c : Char) :
    isSpecial c = false ∧ escapeTextChar c = [c] ∨
      isSpecial c = true ∧ 1 < (escapeTextChar c).length := by
  unfold escapeTextChar
  split
  · exact .inr (by decide)
  · exact .inr (by decide)
  · exact .inr (by decide)
  · exact .inr (by decide)
  · next ampersand less greater space => exact .inl ⟨by simp_all [isSpecial], rfl⟩

/-- A reference is longer than the character that it stands for. -/
theorem length_le_escaped (text : List Char) : text.length ≤ (text.flatMap escapeTextChar).length := by
  induction text with
  | nil => exact Nat.le_refl 0
  | cons c text ih =>
    rw [List.flatMap_cons, List.length_append, List.length_cons]
    obtain ⟨-, same⟩ | ⟨-, longer⟩ := escapeTextChar_cases c
    · rw [same, List.length_singleton]
      omega
    · omega

theorem escaped_eq_self_iff (text : List Char) :
    text.flatMap escapeTextChar = text ↔ ∀ c ∈ text, isSpecial c = false := by
  induction text with
  | nil => simp
  | cons c text ih =>
    rw [List.flatMap_cons, List.forall_mem_cons]
    obtain ⟨plain, same⟩ | ⟨special, longer⟩ := escapeTextChar_cases c
    · rw [same, List.singleton_append, List.cons.injEq, ih]
      simp [plain]
    · constructor
      · intro whole
        have lengths := congrArg List.length whole
        rw [List.length_append, List.length_cons] at lengths
        have atLeast := length_le_escaped text
        omega
      · intro plain
        rw [special] at plain
        cases plain.1

mutual

theorem Node.reread_eq_self_iff (literal : Bool) (node : Node) :
    node.reread literal = node ↔ node.Verbatim literal := by
  match node with
  | .element name space attributes children =>
    rw [Node.reread, Node.Verbatim, ← Forest.reread_eq_self_iff]
    simp
  | .text data =>
    rw [Node.reread, Node.Verbatim]
    cases literal with
    | false => simp
    | true => simp [escapeText, ← escaped_eq_self_iff, ← String.toList_inj]
  | .comment data => simp [Node.reread, Node.Verbatim]

theorem Forest.reread_eq_self_iff (literal : Bool) (forest : List Node) :
    Forest.reread literal forest = forest ↔ Forest.Verbatim literal forest := by
  match forest with
  | [] => simp [Forest.reread, Forest.Verbatim]
  | node :: rest =>
    rw [Forest.reread, Forest.Verbatim, List.cons.injEq, Node.reread_eq_self_iff,
      Forest.reread_eq_self_iff]

end

/-! ## Tags -/

namespace LexerState

theorem InTag.advance_attributeHtml {state : LexerState} {tag : OpenTag} (inTag : state.InTag tag)
    {pair : String × String} (attributable : Attributable pair) :
    ∃ after : LexerState, state.advance (attributeHtml pair) = silently after ∧
      after.InTag { tag with attributes := pair :: tag.attributes } := by
  obtain ⟨name, value⟩ := pair
  obtain ⟨key, shown⟩ := attributable
  have named := inTag.advance_attribute key.filled
    (fun c member => endsWord_of_isNamePart (key.goesOn c member)) key.plain
  have kept : name.toList.map nameChar = name.toList :=
    (List.map_congr_left fun c member => nameChar_of_isNamePart (key.goesOn c member)).trans
      (List.map_id _)
  have valued := advance_escapeValue ⟨tag, name.toList.reverse, []⟩ fun c member zero =>
    shown (zero ▸ member)
  have closed (attr : OpenAttribute) :
      (quotedValue '"' attr).advance ['"'] = silently (.afterQuotedValue (keepAttribute attr)) := rfl
  have front : attributeHtml (name, value) =
      ' ' :: (name.toList ++ ['=', '"']) ++ (value.toList.flatMap escapeValueChar ++ ['"']) := by
    simp [attributeHtml]
  rw [kept] at named
  refine ⟨_, ?_, inTag_afterQuotedValue { tag with attributes := (name, value) :: tag.attributes }⟩
  rw [front, advance_append, named, silently, advance_append, valued, silently, closed]
  simp [silently, keepAttribute]

theorem InTag.advance_attributes {state : LexerState} {tag : OpenTag} (inTag : state.InTag tag)
    {attributes : List (String × String)} (attributable : ∀ pair ∈ attributes, Attributable pair) :
    ∃ after : LexerState, state.advance (attributes.flatMap attributeHtml) = silently after ∧
      after.InTag { tag with attributes := attributes.reverse ++ tag.attributes } := by
  induction attributes generalizing state tag with
  | nil => exact ⟨state, rfl, inTag⟩
  | cons pair attributes ih =>
    rw [List.forall_mem_cons] at attributable
    obtain ⟨between, here, inTag⟩ := inTag.advance_attributeHtml attributable.1
    obtain ⟨after, there, inTag⟩ := ih inTag attributable.2
    refine ⟨after, ?_, by simpa using inTag⟩
    rw [List.flatMap_cons, advance_append, here, silently, there]
    rfl

theorem advance_startTagHtml {name : String} (named : IsTagName name.toList)
    {attributes : List (String × String)} (attributable : ∀ pair ∈ attributes, Attributable pair) :
    (content .data).advance (startTagHtml name attributes) =
      (.content (modeOf name false), [.startTag name attributes false]) := by
  obtain ⟨after, read, inTag⟩ :=
    (inTag_tagName ⟨false, name.toList.reverse, []⟩).advance_attributes attributable
  rw [startTagHtml, advance_append, advance_append, advance_openTag named, silently, read, silently,
    advance_cons, inTag.greater]
  simp [closeTag, advance, silently]

/-! ## Texts -/

/-- A text that means nothing to its mode is passed on character by character. -/
theorem advance_spoken {mode : TextMode} {text : List Char}
    (speaks : ∀ c ∈ text, (content mode).step c = saying (.content mode) [c]) :
    (content mode).advance text = (.content mode, text.map fun c => .text (String.ofList [c])) := by
  induction text with
  | nil => rfl
  | cons c text ih =>
    rw [List.forall_mem_cons] at speaks
    rw [advance_cons, speaks.1, saying, ih speaks.2]
    rfl

theorem step_plainScript (element : String) {c : Char} (less : c ≠ '<') (shown : c ≠ '\x00') :
    (content (.script element .plain)).step c = saying (.content (.script element .plain)) [c] := by
  simp [step, stepContent, stepScript, stepPlainScript, less, visible, shown]

theorem step_escapable (element : String) {c : Char} (ampersand : c ≠ '&') (less : c ≠ '<')
    (shown : c ≠ '\x00') :
    (content (.escapable element)).step c = saying (.content (.escapable element)) [c] := by
  simp [step, stepContent, ampersand, less, visible, shown]

theorem modeOf_of_isVoid {name : String} (void : isVoid name = true) : modeOf name false = .data := by
  have plain : name ∉ rawTextElements := by
    simp only [isVoid, voidElements, List.contains_iff_mem, List.mem_cons, List.not_mem_nil,
      or_false] at void
    obtain rfl | rfl | rfl | rfl | rfl | rfl | rfl | rfl | rfl | rfl | rfl | rfl | rfl | rfl := void <;>
      decide
  simp [modeOf, plain]

/-- What an element with raw text holds is read up to its end tag. -/
theorem advance_bare {name : String} (listed : name ∈ rawTextElements) {children : Forest}
    (bare : Bare children) :
    ∃ tokens, (content (modeOf name false)).advance (Forest.htmlChars children) =
        (.content (modeOf name false), tokens) ∧
      Interchangeable tokens (Forest.tokens (Forest.reread (isLiteral name) children)) := by
  obtain rfl | ⟨data, shown, rfl⟩ := bare
  · exact ⟨[], rfl, .refl _⟩
  have written : Forest.htmlChars [.text data] = data.toList.flatMap escapeTextChar :=
    List.append_nil _
  rw [written]
  by_cases escapable : name ∈ escapableElements
  · have mode : modeOf name false = .escapable name := by simp [modeOf, listed, escapable]
    have literal : isLiteral name = false := by simp [isLiteral, escapable]
    refine ⟨data.toList.map fun c => .text (String.ofList [c]), ?_, ?_⟩
    · rw [mode]
      exact advance_escaped rfl fun c member ampersand less =>
        step_escapable name ampersand less fun zero => shown (zero ▸ member)
    · have whole := Interchangeable.texts data.toList
      rw [String.ofList_toList] at whole
      rw [literal]
      exact whole
  · have mode : modeOf name false = .script name .plain := by simp [modeOf, listed, escapable]
    have literal : isLiteral name = true := by simp [isLiteral, listed, escapable]
    -- Without a less-than sign there are neither end tags nor comments in the script.
    have less := lt_notMem_escapeText data.toList
    have zero : '\x00' ∉ data.toList.flatMap escapeTextChar :=
      notMem_flatMap_escape shown (eq_of_mem_escapeText (by decide))
    refine ⟨(data.toList.flatMap escapeTextChar).map fun c => .text (String.ofList [c]), ?_, ?_⟩
    · rw [mode]
      exact advance_spoken fun c member =>
        step_plainScript name (fun same => less (same ▸ member)) fun same => zero (same ▸ member)
    · rw [literal]
      exact Interchangeable.texts _

/-- The end tag of an element with raw text ends the text. -/
theorem advance_endTagHtml_raw {name : String} (listed : name ∈ rawTextElements) :
    (content (modeOf name false)).advance (endTagHtml name) = (.content .data, [.endTag name]) := by
  simp only [rawTextElements, List.mem_cons, List.not_mem_nil, or_false] at listed
  obtain rfl | rfl | rfl | rfl := listed <;> decide

/-! ## Comments -/

/-- Two dashes and a greater-than sign end a comment whatever may be pending. -/
theorem advance_comment_end (text : List Char) (tail : CommentTail) :
    (comment text tail).advance "-->".toList = commenting (tail.pending.reverse ++ text) := by
  cases tail <;> rfl

theorem advance_commentHtml {data : String} (commentable : Commentable data.toList) :
    (content .data).advance (commentHtml data) = (.content .data, [.comment data]) := by
  obtain ⟨shown, silent⟩ := commentable
  obtain ⟨text, tail, read, whole⟩ :=
    advance_comment_of_silent (fun c member => (shown c member).1) silent
  have opened : (content .data).advance "<!--".toList = silently (.comment [] .start) := rfl
  have same : (tail.pending.reverse ++ text).reverse = data.toList := by
    simpa [CommentTail.pending] using whole
  rw [commentHtml, advance_append, advance_append, opened, silently, read, silently,
    advance_comment_end, commenting, same, String.ofList_toList]
  rfl

end LexerState

/-! ## Trees -/

mutual

/-- A node that is written is read as the tokens that it is built of, whatever follows. -/
theorem Node.run_html {space : Option String} (node : Node) (legible : node.Legible space)
    (rest : List Char) :
    Interchangeable ((LexerState.content .data).run (node.html ++ rest))
      ((node.reread false).tokens ++ (LexerState.content .data).run rest) := by
  match node with
  | .element name own attributes children =>
    obtain ⟨⟨-, named⟩, ⟨-, attributable⟩, void, raw, inside⟩ := legible
    rw [Node.html, List.append_assoc, LexerState.run_append,
      LexerState.advance_startTagHtml named attributable, Node.reread, Node.tokens, List.cons_append,
      List.cons_append, List.nil_append]
    apply Interchangeable.cons
    -- Nothing is written inside of a void element, and what is in a raw one is read without markup.
    by_cases isVoid_ : isVoid name = true
    · have mode : LexerState.modeOf name false = .data := LexerState.modeOf_of_isVoid isVoid_
      rw [if_pos isVoid_, if_pos isVoid_, mode]
      exact .refl _
    rw [if_neg isVoid_, if_neg isVoid_, List.append_assoc]
    by_cases listed : name ∈ rawTextElements
    · obtain ⟨tokens, read, same⟩ := LexerState.advance_bare listed (raw listed)
      rw [LexerState.run_append, read, LexerState.run_append, LexerState.advance_endTagHtml_raw listed,
        List.append_assoc]
      exact same.append (.refl _)
    · have mode : LexerState.modeOf name false = .data := by simp [LexerState.modeOf, listed]
      have literal : isLiteral name = false := by simp [isLiteral, listed]
      have within := Forest.run_htmlChars children inside (endTagHtml name ++ rest)
      rw [LexerState.run_append (LexerState.content .data) (endTagHtml name),
        LexerState.advance_endTagHtml named] at within
      rw [mode, literal, List.append_assoc]
      exact within
  | .text data =>
    rw [Node.html, LexerState.run_append, LexerState.advance_escapeText]
    have whole := Interchangeable.texts data.toList
    rw [String.ofList_toList] at whole
    exact whole.append (.refl _)
  | .comment data =>
    rw [Node.html, LexerState.run_append, LexerState.advance_commentHtml legible]
    exact .refl _

theorem Forest.run_htmlChars {space : Option String} (forest : List Node)
    (legible : Forest.Legible space forest) (rest : List Char) :
    Interchangeable ((LexerState.content .data).run (Forest.htmlChars forest ++ rest))
      (Forest.tokens (Forest.reread false forest) ++ (LexerState.content .data).run rest) := by
  match forest with
  | [] => exact .refl _
  | node :: more =>
    rw [Forest.htmlChars, List.append_assoc, Forest.reread, Forest.tokens, List.append_assoc]
    exact (Node.run_html node legible.1 _).trans
      ((Interchangeable.refl _).append (Forest.run_htmlChars more legible.2 rest))

end

/-! ## Nesting -/

/-- Sorted attributes stay as they are. -/
theorem Sorted.sortAttributes {attributes : List (String × String)} (sorted : Sorted attributes) :
    sortAttributes attributes = attributes := by
  refine (sorted_sortAttributes attributes).ext sorted fun pair => ?_
  rw [mem_sortAttributes_iff]
  refine ⟨List.mem_of_find?_eq_some, fun member => ?_⟩
  cases found : attributes.find? fun other => other.1 = pair.1 with
  | none =>
    have other := List.find?_eq_none.mp found pair member
    simp at other
  | some other =>
    have name : other.1 = pair.1 := by simpa using List.find?_some found
    have same := List.inj_on_of_nodup_map sorted.nodup (List.mem_of_find?_eq_some found) member name
    rw [same]

mutual

/-- The tokens that a node is read as are nested as it is. -/
theorem Node.foldl_push (node : Node) (builder : Builder) (legible : node.Legible builder.space)
    (literal : Bool) :
    (node.reread literal).tokens.foldl Builder.push builder =
      builder.edit fun nodes => pushNode nodes (node.reread literal) := by
  match node with
  | .element name own attributes children =>
    obtain ⟨⟨kind, -⟩, ⟨sorted, -⟩, void, -, inside⟩ := legible
    have space : builder.spaceFor name = own := kind.symm
    rw [Node.reread, Node.tokens, List.foldl_cons, Builder.push]
    by_cases isVoid_ : isVoid name = true
    · rw [if_pos isVoid_, void isVoid_]
      simp only [isVoid_, Bool.or_true, if_true, sorted.sortAttributes, space]
      rfl
    · -- The children go into the element while it is open, and its end tag closes no other.
      have within := Forest.foldl_push children
        ⟨⟨name, own, attributes, []⟩ :: builder.openElements, builder.roots⟩ inside (isLiteral name)
      have joined (trees : Forest) : (trees.foldl pushNode []).reverse = Forest.merge trees :=
        reverse_foldl_pushNode trees nofun
      rw [if_neg isVoid_]
      simp only [isVoid_, Bool.or_false, Bool.false_eq_true, if_false, sorted.sortAttributes, space]
      rw [List.foldl_append, within]
      refine (Builder.push_endTag_head _ _ _).trans ?_
      rw [OpenElement.close, joined]
      rfl
  | .text data | .comment data => rfl

theorem Forest.foldl_push (forest : List Node) (builder : Builder)
    (legible : Forest.Legible builder.space forest) (literal : Bool) :
    (Forest.tokens (Forest.reread literal forest)).foldl Builder.push builder =
      builder.edit fun nodes => (Forest.reread literal forest).foldl pushNode nodes := by
  match forest with
  | [] =>
    obtain ⟨opened, roots⟩ := builder
    cases opened <;> rfl
  | node :: rest =>
    have later : Forest.Legible (builder.edit fun nodes =>
        pushNode nodes (node.reread literal)).space rest := by
      rw [Builder.space_edit]
      exact legible.2
    rw [Forest.reread, Forest.tokens, List.foldl_append, Node.foldl_push node builder legible.1 literal,
      Forest.foldl_push rest _ later literal, Interchangeable.edit_edit]
    rfl

end

theorem escapeText_ne_empty {data : String} (filled : data ≠ "") : escapeText data ≠ "" := by
  intro empty
  have longer := length_le_escaped data.toList
  have none : data.toList.flatMap escapeTextChar = [] := by
    rw [← String.toList_ofList (l := data.toList.flatMap escapeTextChar)]
    exact congrArg String.toList empty
  rw [none, List.length_nil, Nat.le_zero, List.length_eq_zero_iff] at longer
  exact filled (String.toList_inj.mp longer)

theorem Node.isText_reread (literal : Bool) (node : Node) :
    (node.reread literal).isText = node.isText := by
  cases node <;> rfl

/-- Where texts are settled, they are so where they are read again. -/
theorem Settled.reread {forest : Forest} (settled : Settled forest) (literal : Bool) :
    Settled (Forest.reread literal forest) := by
  induction settled generalizing literal with
  | nil => exact .nil
  | @element name space attributes children rest inside after ihInside ihAfter =>
    exact .element (ihInside (isLiteral name)) (ihAfter literal)
  | @text data rest filled apart after ih =>
    refine .text ?_ (fun next first => ?_) (ih literal)
    · cases literal with
      | false => exact filled
      | true => exact escapeText_ne_empty filled
    · cases rest with
      | nil => cases first
      | cons node rest =>
        obtain rfl := Option.some.inj first
        rw [Node.isText_reread]
        exact apart node rfl
  | comment after ih => exact .comment (ih literal)

/-! ## Markup -/

/-- There are no carriage returns in the texts and in the values of attributes. -/
def smooth : NodeSpec where
  element := fun _ attributes => ∀ pair ∈ attributes, '\r' ∉ pair.2.toList
  text := fun data => '\r' ∉ data.toList

/-- A carriage return ends a name. -/
theorem return_notMem_of_goesOn {name : List Char} (goesOn : ∀ c ∈ name, isNamePart c = true) :
    '\r' ∉ name :=
  fun member => Bool.noConfusion (goesOn _ member)

theorem return_notMem_attributeHtml {pair : String × String} (attributable : Attributable pair)
    (plain : '\r' ∉ pair.2.toList) : '\r' ∉ attributeHtml pair := by
  have name := return_notMem_of_goesOn attributable.1.goesOn
  have value := notMem_flatMap_escape plain (eq_of_mem_escapeValue (by decide))
  simp only [attributeHtml, List.mem_cons, List.mem_append, not_or]
  simp [name, value]

theorem return_notMem_startTagHtml {name : String} (named : IsTagName name.toList)
    {attributes : List (String × String)} (attributable : ∀ pair ∈ attributes, Attributable pair)
    (plain : ∀ pair ∈ attributes, '\r' ∉ pair.2.toList) : '\r' ∉ startTagHtml name attributes := by
  have name := return_notMem_of_goesOn named.goesOn
  have pairs : '\r' ∉ attributes.flatMap attributeHtml := by
    intro member
    obtain ⟨pair, listed, member⟩ := List.mem_flatMap.mp member
    exact return_notMem_attributeHtml (attributable pair listed) (plain pair listed) member
  simp [startTagHtml, name, pairs]

mutual

theorem Node.return_notMem_html {space : Option String} (node : Node) (legible : node.Legible space)
    (plain : node.Every smooth) : '\r' ∉ node.html := by
  match node with
  | .element name own attributes children =>
    obtain ⟨⟨-, named⟩, ⟨-, attributable⟩, -, -, inside⟩ := legible
    have front := return_notMem_startTagHtml named attributable plain.1
    have within := Forest.return_notMem_htmlChars children inside plain.2
    have name := return_notMem_of_goesOn named.goesOn
    rw [Node.html, List.mem_append, not_or]
    refine ⟨front, ?_⟩
    split
    · exact List.not_mem_nil
    · simp [within, endTagHtml, name]
  | .text data => exact notMem_flatMap_escape plain (eq_of_mem_escapeText (by decide))
  | .comment data =>
    have shown : '\r' ∉ data.toList := fun member => (legible.1 _ member).2 rfl
    simp [Node.html, commentHtml, shown]

theorem Forest.return_notMem_htmlChars {space : Option String} (forest : List Node)
    (legible : Forest.Legible space forest) (plain : Forest.Every smooth forest) :
    '\r' ∉ Forest.htmlChars forest := by
  match forest with
  | [] => exact List.not_mem_nil
  | node :: rest =>
    rw [Forest.htmlChars, List.mem_append, not_or]
    exact ⟨Node.return_notMem_html node legible.1 plain.1,
      Forest.return_notMem_htmlChars rest legible.2 plain.2⟩

end

/-- A forest that can be written is parsed to what its literal texts leave of it. -/
theorem Forest.parse_html {forest : Forest} (legible : Forest.Legible none forest)
    (settled : Settled forest) (plain : Forest.Every smooth forest) :
    Forest.parse (Forest.html forest) = Forest.reread false forest := by
  have same : normalizeLines (Forest.htmlChars forest) = Forest.htmlChars forest := by
    have whole := normalizeLines_append (Forest.return_notMem_htmlChars forest legible plain) []
    rwa [List.append_nil, normalizeLines, List.append_nil] at whole
  have read := Forest.run_htmlChars forest legible [] .empty
  have ends : (LexerState.content .data).run [] = [] := rfl
  rw [List.append_nil, ends, List.append_nil, Forest.foldl_push forest .empty legible] at read
  rw [Forest.parse, Forest.ofTokens, Markup.tokens, Forest.html, String.toList_ofList, same]
  show Builder.finish (List.foldl _ _ ((LexerState.content .data).run _)) = _
  rw [read]
  refine (reverse_foldl_pushNode _ (by simp [Builder.empty])).trans ?_
  exact (settled.reread false).merge

end Markup

end LiveMarkup
