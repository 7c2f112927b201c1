import LiveMarkup.Proofs.Confinement
import LiveMarkup.Proofs.Printing.Tokens

/-! # What the parser builds can be written

The names, values and comments of a forest that is parsed are such that they are read as they are
written, a void element holds nothing, and an element with raw text holds one text at most
(`Forest.legible_parse`).

Raw text is read in the innermost open element only, so that nothing but the text in it is put
there, as `OpenLegible` says of an element that is still open. -/

namespace LiveMarkup

open Markup

/-! ## Forests -/

/-- One text at most, and without the character zero: what an element with raw text holds. -/
def Bare (children : Forest) : Prop :=
  children = [] ∨ ∃ data : String, '\x00' ∉ data.toList ∧ children = [.text data]

namespace Markup

mutual

/-- A node that is read again where it is written, in an element of the given namespace. -/
def Node.Legible (space : Option String) : Node → Prop
  | .element name own attributes children =>
    (own = spaceOf name space ∧ IsTagName name.toList) ∧
      (Sorted attributes ∧ ∀ pair ∈ attributes, Attributable pair) ∧
      (isVoid name = true → children = []) ∧ (name ∈ rawTextElements → Bare children) ∧
      Forest.Legible own children
  | .text _ => True
  | .comment data => Commentable data.toList

/-- Sibling nodes that are read again where they are written. -/
def Forest.Legible (space : Option String) : List Node → Prop
  | [] => True
  | node :: rest => node.Legible space ∧ Forest.Legible space rest

end

theorem Forest.legible_iff {space : Option String} {forest : Forest} :
    Forest.Legible space forest ↔ ∀ node ∈ forest, node.Legible space := by
  induction forest with
  | nil => exact ⟨fun _ => nofun, fun _ => trivial⟩
  | cons node rest ih => rw [Forest.Legible, ih, List.forall_mem_cons]

theorem Forest.legible_reverse {space : Option String} {forest : Forest} :
    Forest.Legible space forest.reverse ↔ Forest.Legible space forest := by
  simp [legible_iff]

/-! ## Open elements -/

/-- Open elements, the innermost first, of which only the innermost can have raw text. -/
def OpenLegible : List OpenElement → Prop
  | [] => True
  | element :: outer =>
    (isVoid element.name = false ∧ Free (outer.map (·.name))) ∧
      element.close.Legible (outer.head?.bind (·.space)) ∧ OpenLegible outer

namespace Builder

/-- What is built so far is legible. -/
structure Legible (builder : Builder) : Prop where
  opened : OpenLegible builder.openElements
  roots : Forest.Legible none builder.roots

variable {builder : Builder}

theorem Legible.edit (legible : builder.Legible) {change : List Node → List Node}
    (keeps : ∀ nodes, Forest.Legible builder.space nodes →
      Forest.Legible builder.space (change nodes))
    (bare : ∀ name ∈ builder.names.head?, name ∈ rawTextElements →
      ∀ nodes, Bare nodes.reverse → Bare (change nodes).reverse) :
    (builder.edit change).Legible := by
  obtain ⟨opened, roots⟩ := builder
  cases opened with
  | nil => exact ⟨trivial, keeps roots legible.roots⟩
  | cons innermost outer =>
    obtain ⟨⟨⟨notVoid, free⟩, ⟨kind, attributes, void, raw, inside⟩, outside⟩, roots⟩ := legible
    refine ⟨⟨⟨notVoid, free⟩, ⟨kind, attributes, fun isVoid_ => ?_, fun listed => ?_, ?_⟩, outside⟩,
      roots⟩
    · exact absurd (notVoid.symm.trans isVoid_) Bool.false_ne_true
    · exact bare _ rfl listed _ (raw listed)
    · exact Forest.legible_reverse.mpr (keeps _ (Forest.legible_reverse.mp inside))

theorem Legible.append (legible : builder.Legible) (free : Free builder.names) {node : Node}
    (own : node.Legible builder.space) : (builder.append node).Legible :=
  legible.edit (fun _ others => ⟨own, others⟩) fun name head listed =>
    absurd listed (free name (List.mem_of_mem_head? head))

theorem Legible.closeInnermost (legible : builder.Legible) : builder.closeInnermost.Legible := by
  obtain ⟨opened, roots⟩ := builder
  cases opened with
  | nil => exact legible
  | cons innermost outer =>
    obtain ⟨⟨⟨-, free⟩, own, outside⟩, finished⟩ := legible
    have left : Builder.Legible ⟨outer, roots⟩ := ⟨outside, finished⟩
    exact left.append free own

theorem Legible.closeMany (legible : builder.Legible) (count : Nat) :
    (builder.closeMany count).Legible := by
  induction count generalizing builder with
  | zero => exact legible
  | succ count ih => exact ih legible.closeInnermost

theorem Legible.finish (legible : builder.Legible) : Forest.Legible none builder.finish :=
  Forest.legible_reverse.mpr (legible.closeMany _).roots

/-- A text can stand where no raw text is read, and anywhere without the character zero. -/
theorem Legible.text (legible : builder.Legible) {data : String}
    (sayable : Free builder.names ∨ '\x00' ∉ data.toList) : (builder.push (.text data)).Legible := by
  refine legible.edit (fun nodes others => ?_) fun name head listed nodes bare => ?_
  · unfold appendText
    split
    · exact others
    split
    · exact ⟨trivial, others.2⟩
    · exact ⟨trivial, others⟩
  · obtain free | shown := sayable
    · exact absurd listed (free name (List.mem_of_mem_head? head))
    unfold appendText
    split
    · exact bare
    obtain none | ⟨before, shown', one⟩ := bare
    · rw [List.reverse_eq_nil_iff] at none
      subst none
      exact .inr ⟨data, shown, rfl⟩
    · rw [List.reverse_eq_cons_iff] at one
      subst one
      refine .inr ⟨before ++ data, ?_, rfl⟩
      rw [String.toList_append, List.mem_append, not_or]
      exact ⟨shown', shown⟩

theorem Legible.comment (legible : builder.Legible) (free : Free builder.names) {data : String}
    (commentable : Commentable data.toList) : (builder.push (.comment data)).Legible :=
  legible.append free commentable

theorem Legible.endTag (legible : builder.Legible) (name : String) :
    (builder.push (.endTag name)).Legible := by
  unfold push
  dsimp only
  split
  · exact legible.closeMany _
  · exact legible

theorem Legible.startTag (legible : builder.Legible) (free : Free builder.names) {name : String}
    (named : IsTagName name.toList) {attributes : List (String × String)}
    (attributable : ∀ pair ∈ attributes, Attributable pair) (selfClosing : Bool) :
    (builder.push (.startTag name attributes selfClosing)).Legible := by
  have own : Node.Legible builder.space
      (.element name (builder.spaceFor name) (sortAttributes attributes) []) := by
    refine ⟨⟨rfl, named⟩, ⟨sorted_sortAttributes attributes, fun pair member => ?_⟩, fun _ => rfl,
      fun _ => .inl rfl, trivial⟩
    exact attributable pair (List.mem_of_find?_eq_some (mem_sortAttributes_iff.mp member))
  unfold push
  dsimp only
  split
  · exact legible.append free own
  · next opens =>
    rw [Bool.or_eq_true, not_or, Bool.not_eq_true, Bool.not_eq_true] at opens
    exact ⟨⟨⟨opens.2, free⟩, own, legible.opened⟩, legible.roots⟩

end Builder

end Markup

/-! ## States -/

/-- The name and the attributes of a start tag that is read can be written. -/
def Markup.OpenTag.Legible (tag : OpenTag) : Prop :=
  tag.closing = false →
    IsTagName tag.name.reverse ∧ ∀ pair ∈ tag.attributes, Attributable pair

/-- So can an attribute that is read, and its tag. -/
structure Markup.OpenAttribute.Legible (attr : OpenAttribute) : Prop where
  tag : attr.tag.Legible
  key : IsKey attr.name.reverse
  shown : '\x00' ∉ attr.value

/-- What a state of the lexer holds can be written. -/
def Markup.LexerState.Legible : LexerState → Prop
  | .contentReference _ reference => reference.Shown
  | .rawEndTag _ name => '\x00' ∉ name
  | .tagName tag | .beforeAttributeName tag | .afterQuotedValue tag | .selfClosing tag => tag.Legible
  | .attributeName attr | .afterAttributeName attr | .beforeAttributeValue attr
  | .quotedValue _ attr | .unquotedValue attr => attr.Legible
  | .valueReference _ attr reference => attr.Legible ∧ reference.Shown
  | .declaration text | .bogusComment text => Uninterrupted text
  | .comment text tail => Commenting text tail
  | .content _ | .lessThan _ | .endTagOpen _ | .doctype => True

theorem Markup.OpenAttribute.Legible.keep {attr : OpenAttribute} (legible : attr.Legible) :
    (LexerState.keepAttribute attr).Legible := by
  intro starts
  obtain ⟨named, attributable⟩ := legible.tag starts
  refine ⟨named, List.forall_mem_cons.mpr ⟨⟨?_, ?_⟩, attributable⟩⟩
  · rw [String.toList_ofList]
    exact legible.key
  · rw [String.toList_ofList]
    exact fun member => legible.shown (List.mem_reverse.mp member)

theorem Markup.OpenAttribute.Legible.pushValue {attr : OpenAttribute} (legible : attr.Legible)
    {c : Char} (shown : c ≠ '\x00') : (LexerState.pushValue attr c).Legible :=
  ⟨legible.tag, legible.key, List.not_mem_cons_of_ne_of_not_mem shown.symm legible.shown⟩

theorem Markup.OpenAttribute.Legible.pushAll {attr : OpenAttribute} (legible : attr.Legible)
    {text : List Char} (shown : '\x00' ∉ text) :
    (text.foldl LexerState.pushValue attr).Legible := by
  rw [LexerState.foldl_pushValue]
  refine ⟨legible.tag, legible.key, ?_⟩
  simp [shown, legible.shown]

/-- No raw text is read where a tag opens an element. -/
def Opens (tag : OpenTag) (names : List String) : Prop :=
  tag.closing = false → Free names

theorem MayClose.opens {tag : OpenTag} {names : List String}
    (mayClose : MayClose tag names) :
    Opens tag names := by
  intro starts
  obtain ⟨outer, free, rfl | ⟨closing, -⟩⟩ := mayClose
  · exact free
  · rw [starts] at closing
    cases closing

/-- What a step gives can be written, and so can what is built with it. -/
structure Inscribes (builder : Builder) (step : LexerStep) : Prop where
  state : step.1.Legible
  built : (step.2.foldl Builder.push builder).Legible

namespace Inscribes

open LexerState

variable {builder : Builder} {mode : TextMode} {tag : OpenTag} {attr : OpenAttribute}

theorem silently (legible : builder.Legible) {state : LexerState} (own : state.Legible) :
    Inscribes builder (silently state) :=
  ⟨own, legible⟩

/-! ## Text -/

/-- A text that can stand in the given mode. -/
def Sayable (mode : TextMode) (text : List Char) : Prop :=
  mode = .data ∨ '\x00' ∉ text

theorem text (reads : Reads mode builder.names) (legible : builder.Legible) {text : List Char}
    (sayable : Sayable mode text) : (builder.push (.text (String.ofList text))).Legible := by
  refine legible.text ?_
  obtain rfl | shown := sayable
  · exact .inl reads.free
  · rw [String.toList_ofList]
    exact .inr shown

theorem saying (reads : Reads mode builder.names) (legible : builder.Legible) {next : TextMode}
    {data : List Char} (sayable : Sayable mode data) :
    Inscribes builder (saying (.content next) data) :=
  ⟨trivial, text reads legible sayable⟩

theorem sayable_visible (mode : TextMode) (c : Char) : Sayable mode [visible c] :=
  .inr fun member => visible_ne_zero c (List.mem_singleton.mp member).symm

theorem stepEscaped {element : String} {phase : ScriptPhase}
    (reads : Reads (.script element phase) builder.names) (legible : builder.Legible) (dashes : Nat)
    (c : Char) : Inscribes builder (stepEscaped element dashes c) := by
  unfold LexerState.stepEscaped
  split
  · exact silently legible trivial
  · exact saying reads legible (sayable_visible _ c)

theorem stepPlainScript {element : String} {phase : ScriptPhase}
    (reads : Reads (.script element phase) builder.names) (legible : builder.Legible) (c : Char) :
    Inscribes builder (stepPlainScript element c) := by
  unfold LexerState.stepPlainScript
  dsimp only
  split
  · exact silently legible trivial
  · exact saying reads legible (sayable_visible _ c)

theorem stepScript {element : String} {phase : ScriptPhase}
    (reads : Reads (.script element phase) builder.names) (legible : builder.Legible) (c : Char) :
    Inscribes builder (stepScript element phase c) := by
  have goOn (next : ScriptPhase) (notZero : c ≠ '\x00') :
      Inscribes builder (LexerState.saying (.content (.script element next)) [c]) :=
    saying reads legible (.inr fun member => notZero (List.mem_singleton.mp member).symm)
  have ends (ends : endsWord c = true) : c ≠ '\x00' := by
    rintro rfl
    cases ends
  have letter (alpha : c.isAlpha = true) : c ≠ '\x00' := by
    rintro rfl
    cases alpha
  unfold LexerState.stepScript
  dsimp only
  split
  · exact stepPlainScript reads legible c
  · split
    · next dash => exact goOn _ (dash ▸ by decide)
    · exact stepPlainScript reads legible c
  · exact stepEscaped reads legible _ c
  · split
    · next word => exact goOn _ (ends word)
    split
    · next alpha => exact goOn _ (letter alpha)
    · exact stepEscaped reads legible 0 c
  · exact saying reads legible (sayable_visible _ c)
  · split
    · next slash => exact goOn _ (slash ▸ by decide)
    · exact saying reads legible (sayable_visible _ c)
  · split
    · next word => exact goOn _ (ends word)
    split
    · next alpha => exact goOn _ (letter alpha)
    · exact saying reads legible (sayable_visible _ c)

theorem stepContent (reads : Reads mode builder.names) (legible : builder.Legible) (c : Char) :
    Inscribes builder (stepContent mode c) := by
  cases mode with
  | data =>
    unfold LexerState.stepContent
    dsimp only
    split
    · exact silently legible trivial
    split
    · exact silently legible trivial
    · exact saying reads legible (.inl rfl)
  | escapable element =>
    unfold LexerState.stepContent
    dsimp only
    split
    · exact silently legible trivial
    split
    · exact silently legible trivial
    · exact saying reads legible (sayable_visible _ c)
  | script element phase => exact stepScript reads legible c

theorem stepContentAfter (reads : Reads mode builder.names) (legible : builder.Legible)
    {data : List Char} (sayable : Sayable mode data) (c : Char) :
    Inscribes builder (stepContentAfter data mode c) := by
  have same : (builder.push (.text (String.ofList data))).names = builder.names :=
    Builder.names_push_of_not_isTag rfl
  have after : Reads mode (builder.push (.text (String.ofList data))).names := by rwa [same]
  have step := stepContent after (text reads legible sayable) c
  exact ⟨step.state, step.built⟩

theorem stepContentReference (reads : Reads mode builder.names) (legible : builder.Legible)
    {reference : Reference} (shown : reference.Shown) (c : Char) :
    Inscribes builder ((contentReference mode reference).step c) := by
  have next := shown.step false c
  unfold LexerState.step
  dsimp only
  split
  · next same =>
    rw [same] at next
    exact silently legible next
  · next same =>
    rw [same] at next
    exact saying reads legible (.inr next)
  · next same =>
    rw [same] at next
    exact stepContentAfter reads legible (.inr next) c

/-! ## Tags -/

theorem closeTag (opens : Opens tag builder.names) (legible : builder.Legible)
    (own : tag.Legible) (selfClosing : Bool) : Inscribes builder (closeTag tag selfClosing) := by
  unfold LexerState.closeTag
  dsimp only
  split
  · exact ⟨trivial, legible.endTag _⟩
  next starts =>
  rw [Bool.not_eq_true] at starts
  obtain ⟨named, attributable⟩ := own starts
  refine ⟨trivial, legible.startTag (opens starts) ?_ (fun pair member => ?_) selfClosing⟩
  · rwa [String.toList_ofList]
  · exact attributable pair (List.mem_reverse.mp member)

theorem stepBeforeAttributeName (opens : Opens tag builder.names) (legible : builder.Legible)
    (own : tag.Legible) (c : Char) : Inscribes builder (stepBeforeAttributeName tag c) := by
  unfold LexerState.stepBeforeAttributeName
  split
  · exact silently legible own
  split
  · exact silently legible own
  split
  · exact closeTag opens legible own false
  next blank slash greater =>
  have goesOn : endsWord c = false := by simp [endsWord, blank, slash, greater]
  refine silently legible ⟨own, ⟨by simp, fun d member => ?_, List.not_mem_nil⟩, List.not_mem_nil⟩
  rw [List.reverse_singleton, List.mem_singleton] at member
  rw [member]
  exact isNamePart_nameChar goesOn

theorem stepTagName (free : Free builder.names) (legible : builder.Legible) (own : tag.Legible)
    (c : Char) : Inscribes builder ((tagName tag).step c) := by
  unfold LexerState.step
  dsimp only
  split
  · exact stepBeforeAttributeName (fun _ => free) legible own c
  · next goesOn =>
    rw [Bool.not_eq_true] at goesOn
    refine silently legible fun starts => ⟨?_, (own starts).2⟩
    rw [List.reverse_cons]
    exact (own starts).1.concat (isNamePart_nameChar goesOn)

theorem nameChar_ne_equals {c : Char} (other : c ≠ '=') : nameChar c ≠ '=' := by
  unfold nameChar visible
  split
  · decide
  · exact fun same => other (eq_of_toLower_eq same rfl)

theorem stepAttributeName (opens : Opens attr.tag builder.names) (legible : builder.Legible)
    (own : attr.Legible) (c : Char) : Inscribes builder ((attributeName attr).step c) := by
  have kept : Opens (keepAttribute attr) builder.names := opens
  unfold LexerState.step
  dsimp only
  split
  · exact silently legible own
  split
  · exact silently legible own
  split
  · exact stepBeforeAttributeName kept legible own.keep c
  · next equals goesOn =>
    rw [Bool.not_eq_true] at goesOn
    refine silently legible ⟨own.tag, ?_, own.shown⟩
    rw [List.reverse_cons]
    exact own.key.concat (isNamePart_nameChar goesOn) (nameChar_ne_equals equals)

theorem stepQuotedValue (legible : builder.Legible) (own : attr.Legible) (quote c : Char) :
    Inscribes builder (stepQuotedValue quote attr c) := by
  unfold LexerState.stepQuotedValue
  split
  · exact silently legible own.keep
  split
  · exact silently legible ⟨own, trivial⟩
  · exact silently legible (own.pushValue (visible_ne_zero c))

theorem stepUnquotedValue (opens : Opens attr.tag builder.names) (legible : builder.Legible)
    (own : attr.Legible) (c : Char) : Inscribes builder (stepUnquotedValue attr c) := by
  have kept : Opens (keepAttribute attr) builder.names := opens
  unfold LexerState.stepUnquotedValue
  split
  · exact silently legible own.keep
  split
  · exact closeTag kept legible own.keep false
  split
  · exact silently legible ⟨own, trivial⟩
  · exact silently legible (own.pushValue (visible_ne_zero c))

theorem stepValueReference {quote : Option Char} (opens : Opens attr.tag builder.names)
    (legible : builder.Legible) (own : attr.Legible) {reference : Reference}
    (shown : reference.Shown) (c : Char) :
    Inscribes builder ((valueReference quote attr reference).step c) := by
  have next := shown.step true c
  unfold LexerState.step
  dsimp only
  split
  · next same =>
    rw [same] at next
    exact silently legible ⟨own, next⟩
  · next text consumed same =>
    rw [same] at next
    have pushed := own.pushAll next
    have opens' : Opens (text.foldl pushValue attr).tag builder.names := by
      rwa [tag_foldl_pushValue]
    split
    · cases quote <;> exact silently legible pushed
    · cases quote with
      | none => exact stepUnquotedValue opens' legible pushed c
      | some quote => exact stepQuotedValue legible pushed quote c

/-! ## Comments and declarations -/

theorem commenting (free : Free builder.names) (legible : builder.Legible) {text : List Char}
    (commentable : Commentable text.reverse) : Inscribes builder (commenting text) := by
  refine ⟨trivial, legible.comment free ?_⟩
  rwa [String.toList_ofList]

theorem stepBogusComment (free : Free builder.names) (legible : builder.Legible) {text : List Char}
    (whole : Uninterrupted text) {c : Char} (smooth : c ≠ '\r') :
    Inscribes builder (stepBogusComment text c) := by
  unfold LexerState.stepBogusComment
  split
  · exact commenting free legible whole.commentable
  next greater =>
  refine silently legible (List.forall_mem_cons.mpr ⟨⟨⟨visible_ne_zero c, ?_⟩, ?_⟩, whole⟩)
  · unfold visible
    split
    · decide
    · exact smooth
  · unfold visible
    split
    · decide
    · exact greater

theorem stepDeclaration (free : Free builder.names) (legible : builder.Legible) {seen : List Char}
    (whole : Uninterrupted seen) {c : Char} (smooth : c ≠ '\r') :
    Inscribes builder (stepDeclaration seen c) := by
  unfold LexerState.stepDeclaration
  split
  · exact silently legible (List.forall_mem_singleton.mpr (by decide))
  split
  · exact silently legible ⟨rfl, nofun⟩
  split
  · exact silently legible trivial
  split
  · next begins =>
    -- The letters of the word are none of the characters that would matter.
    have letter : c.toLower ∈ doctypeWord := by
      refine (List.isPrefixOf_iff_prefix.mp begins).mem ?_
      simp
    have other (d : Char) (same : d.toLower = d) (foreign : d ∉ doctypeWord) : c ≠ d := by
      rintro rfl
      exact foreign (same ▸ letter)
    exact silently legible (List.forall_mem_cons.mpr
      ⟨⟨⟨other _ rfl (by decide), smooth⟩, other _ rfl (by decide)⟩, whole⟩)
  · exact stepBogusComment free legible whole smooth

theorem stepCommentTail (free : Free builder.names) (legible : builder.Legible) {text : List Char}
    {tail : CommentTail} (own : Commenting text tail) {c : Char} (smooth : c ≠ '\r') :
    Inscribes builder ((LexerState.comment text tail).step c) := by
  obtain ⟨text', tail', here, same⟩ | ⟨-, ended⟩ := step_comment_cases text tail c
  · rw [here]
    exact silently legible (own.step smooth here same)
  · rw [ended]
    exact commenting free legible own.commentable

/-! ## Where a tag begins -/

theorem stepLessThan (reads : Reads mode builder.names) (legible : builder.Legible) (c : Char) :
    Inscribes builder (stepLessThan mode c) := by
  have after := stepContentAfter reads legible (.inr (by decide : '\x00' ∉ ['<'])) c
  unfold LexerState.stepLessThan
  split
  · exact silently legible trivial
  split
  · split
    · exact silently legible (nofun : Uninterrupted [])
    split
    · exact silently legible (List.forall_mem_singleton.mpr (by decide))
    split
    · next alpha =>
      refine silently legible fun _ => ⟨⟨⟨_, [], rfl, ?_⟩, ?_⟩, nofun⟩
      · exact isAlpha_toLower alpha
      · exact List.forall_mem_singleton.mpr (nameChar_of_isAlpha alpha ▸
          isNamePart_nameChar (endsWord_of_isAlpha alpha))
    · exact after
  · split
    · exact saying reads legible (.inr (by decide))
    · exact after
  · split
    · next alpha =>
      refine saying reads legible (.inr ?_)
      rintro member
      obtain rfl : '\x00' = c := by simpa using member
      cases alpha
    · exact after
  · exact after

theorem stepEndTagOpen (reads : Reads mode builder.names) (legible : builder.Legible) {c : Char}
    (smooth : c ≠ '\r') : Inscribes builder (stepEndTagOpen mode c) := by
  have after := stepContentAfter reads legible (.inr (by decide : '\x00' ∉ ['<', '/'])) c
  have raw : Inscribes builder (if c.isAlpha then LexerState.silently (.rawEndTag mode [c])
      else LexerState.stepContentAfter ['<', '/'] mode c) := by
    split
    · next alpha =>
      refine silently legible fun member => ?_
      obtain rfl := List.mem_singleton.mp member
      cases alpha
    · exact after
  cases mode with
  | data =>
    unfold LexerState.stepEndTagOpen
    dsimp only
    split
    · next alpha => exact silently legible fun starts => Bool.noConfusion starts
    split
    · exact silently legible trivial
    · exact stepBogusComment reads.free legible (nofun : Uninterrupted []) smooth
  | escapable element | script element phase => exact raw

theorem stepRawEndTag (reads : Reads mode builder.names) (legible : builder.Legible)
    {name : List Char} (shown : '\x00' ∉ name) (c : Char) :
    Inscribes builder (stepRawEndTag mode name c) := by
  unfold LexerState.stepRawEndTag
  split
  · next alpha =>
    refine silently legible fun member => ?_
    obtain rfl | old := List.mem_cons.mp member
    · cases alpha
    · exact shown old
  split
  · -- Behind the name there is an end tag, which is never written.
    exact stepBeforeAttributeName (fun starts => Bool.noConfusion starts) legible
      (fun starts => Bool.noConfusion starts) c
  · refine stepContentAfter reads legible (.inr ?_) c
    simpa using shown

/-! ## Any character -/

theorem step {state : LexerState} (confined : Confined builder.names state)
    (legible : builder.Legible) (own : state.Legible) {c : Char} (smooth : c ≠ '\r') :
    Inscribes builder (state.step c) := by
  cases state with
  | content mode => exact stepContent confined legible c
  | contentReference mode reference => exact stepContentReference confined legible own c
  | lessThan mode => exact stepLessThan confined legible c
  | endTagOpen mode => exact stepEndTagOpen confined legible smooth
  | rawEndTag mode name => exact stepRawEndTag confined legible own c
  | tagName tag => exact stepTagName confined legible own c
  | beforeAttributeName tag | afterQuotedValue tag =>
    exact stepBeforeAttributeName (MayClose.opens confined) legible own c
  | attributeName attr => exact stepAttributeName (MayClose.opens confined) legible own c
  | afterAttributeName attr =>
    have opens : Opens (keepAttribute attr) builder.names := MayClose.opens confined
    unfold LexerState.step
    dsimp only
    split
    · exact silently legible own
    split
    · exact silently legible own
    · exact stepBeforeAttributeName opens legible own.keep c
  | beforeAttributeValue attr =>
    unfold LexerState.step
    dsimp only
    split
    · exact silently legible own
    split
    · exact silently legible own
    · exact stepUnquotedValue (MayClose.opens confined) legible own c
  | quotedValue quote attr => exact stepQuotedValue legible own quote c
  | unquotedValue attr => exact stepUnquotedValue (MayClose.opens confined) legible own c
  | valueReference quote attr reference =>
    exact stepValueReference (MayClose.opens confined) legible own.1 own.2 c
  | selfClosing tag =>
    unfold LexerState.step
    dsimp only
    split
    · exact closeTag (MayClose.opens confined) legible own true
    · exact stepBeforeAttributeName (MayClose.opens confined) legible own c
  | declaration seen => exact stepDeclaration confined legible own smooth
  | doctype =>
    unfold LexerState.step
    dsimp only
    split
    · exact ⟨trivial, legible⟩
    · exact silently legible trivial
  | comment text tail => exact stepCommentTail confined legible own smooth
  | bogusComment text => exact stepBogusComment confined legible own smooth

/-- What is left at the end can be written, too. -/
theorem finish {state : LexerState} (confined : Confined builder.names state)
    (legible : builder.Legible) (own : state.Legible) :
    (state.finish.foldl Builder.push builder).Legible := by
  cases state with
  | contentReference mode reference =>
    exact text confined legible (.inr (Reference.Shown.finish own false))
  | lessThan mode => exact text confined legible (.inr (by decide))
  | endTagOpen mode => exact text confined legible (.inr (by decide))
  | rawEndTag mode name =>
    refine text confined legible (.inr ?_)
    have shown : '\x00' ∉ name := own
    simpa using shown
  | declaration text | bogusComment text =>
    have whole : Uninterrupted text := own
    refine legible.comment confined ?_
    rw [String.toList_ofList]
    exact whole.commentable
  | comment text tail =>
    have reads : Commenting text tail := own
    refine legible.comment confined ?_
    rw [String.toList_ofList]
    exact reads.commentable
  | _ => exact legible

theorem run {state : LexerState} (confined : Confined builder.names state)
    (legible : builder.Legible) (own : state.Legible) {text : List Char} (smooth : '\r' ∉ text) :
    ((state.run text).foldl Builder.push builder).Legible := by
  induction text generalizing state builder with
  | nil => exact finish confined legible own
  | cons c text ih =>
    rw [List.mem_cons, not_or] at smooth
    have next := step confined legible own (Ne.symm smooth.1)
    rw [LexerState.run, List.foldl_append]
    exact ih (Confines.step confined c) next.built next.state smooth.2

end Inscribes

/-! ## Markup -/

theorem return_notMem_normalizeLines (text : List Char) : '\r' ∉ normalizeLines text := by
  fun_induction normalizeLines text with
  | case1 rest ih | case2 rest _ ih => simpa using ih
  | case3 c rest _ other ih => exact List.not_mem_cons_of_ne_of_not_mem (fun same => other same.symm) ih
  | case4 => exact List.not_mem_nil

/-- Whatever is parsed can be written. -/
theorem Markup.Forest.legible_parse (markup : String) : Forest.Legible none (Forest.parse markup) := by
  have legible : Builder.empty.Legible := ⟨trivial, trivial⟩
  have confined : Confined Builder.empty.names LexerState.start := Reads.data nofun
  exact (Inscribes.run confined legible trivial (return_notMem_normalizeLines _)).finish

end LiveMarkup
