import LiveMarkup.Proofs.Lockstep.Segments

/-! # Where an element with raw text is open

While the lexer reads the text of an element, that element is the innermost open one, and in all
other states no element with raw text is open.  So what the lexer reads as content is outside of all
such elements.

Between the name in an end tag and the end of that tag, the text is over but the element is still
open (`MayClose`). -/

namespace LiveMarkup

open Markup

/-! ## The names of the open elements -/

/-- Whether a token opens or closes elements. -/
def Markup.Token.isTag : Token → Bool
  | startTag _ _ _ | endTag _ => true
  | _ => false

namespace Markup.Builder

variable {builder : Builder}

def names (builder : Builder) : List String :=
  builder.openElements.map (·.name)

@[simp] theorem names_edit (change : List Node → List Node) :
    (builder.edit change).names = builder.names := by
  obtain ⟨opened, roots⟩ := builder
  cases opened <;> rfl

@[simp] theorem names_closeMany (count : Nat) :
    (builder.closeMany count).names = builder.names.drop count := by
  induction count generalizing builder with
  | zero => rfl
  | succ count ih =>
    rw [closeMany, ih]
    obtain ⟨opened, roots⟩ := builder
    cases opened with
    | nil => simp [closeInnermost, names]
    | cons innermost outer =>
      show (Builder.edit ⟨outer, roots⟩ (innermost.close :: ·)).names.drop count = _
      rw [names_edit]
      rfl

theorem names_startTag (name : String) (attributes : List (String × String))
    (selfClosing : Bool) :
    (builder.push (.startTag name attributes selfClosing)).names =
      if selfClosing || isVoid name then builder.names else name :: builder.names := by
  unfold push
  dsimp only
  split
  · exact names_edit _
  · rfl

theorem exists_names_endTag (name : String) :
    ∃ count, (builder.push (.endTag name)).names = builder.names.drop count := by
  unfold push
  dsimp only
  split
  · next inner _ => exact ⟨inner + 1, names_closeMany (inner + 1)⟩
  · exact ⟨0, rfl⟩

/-- An end tag closes the innermost element if it has its name. -/
theorem names_endTag_head {name : String} {outer : List String}
    (head : builder.names = name :: outer) : (builder.push (.endTag name)).names = outer := by
  obtain ⟨opened, roots⟩ := builder
  cases opened with
  | nil => cases head
  | cons innermost others =>
    obtain ⟨same, rest⟩ := List.cons.inj head
    have found : (innermost :: others).findIdx? (·.name == name) = some 0 := by
      simp [List.findIdx?_cons, same]
    rw [push]
    dsimp only
    rw [found, names_closeMany]
    exact rest

theorem names_push_of_not_isTag {token : Token} (other : token.isTag = false) :
    (builder.push token).names = builder.names := by
  cases token with
  | startTag | endTag => cases other
  | text | comment => exact names_edit _
  | doctype | mistake => rfl

theorem names_foldl_push {tokens : List Token} (others : ∀ token ∈ tokens, token.isTag = false) :
    (tokens.foldl push builder).names = builder.names := by
  induction tokens generalizing builder with
  | nil => rfl
  | cons token tokens ih =>
    rw [List.forall_mem_cons] at others
    rw [List.foldl_cons, ih others.2, names_push_of_not_isTag others.1]

end Markup.Builder

/-! ## States and open elements -/

/-- No raw text is read inside these elements. -/
def Free (names : List String) : Prop :=
  ∀ name ∈ names, name ∉ rawTextElements

theorem Free.drop {names : List String} (free : Free names) (count : Nat) :
    Free (names.drop count) :=
  fun name member => free name (List.mem_of_mem_drop member)

/-- The element that a mode belongs to is the innermost one. -/
def Reads (mode : TextMode) (names : List String) : Prop :=
  ∃ outer, Free outer ∧ names = mode.element?.toList ++ outer

/-- If an element with raw text is open, it is the one that the tag closes. -/
def MayClose (tag : OpenTag) (names : List String) : Prop :=
  ∃ outer, Free outer ∧
    (names = outer ∨ tag.closing = true ∧ names = String.ofList tag.name.reverse :: outer)

/-- The open elements that a state of the lexer goes with. -/
def Confined (names : List String) : LexerState → Prop
  | .content mode | .contentReference mode _ | .lessThan mode | .endTagOpen mode
  | .rawEndTag mode _ => Reads mode names
  | .tagName _ | .declaration _ | .doctype | .comment _ _ | .bogusComment _ => Free names
  | .beforeAttributeName tag | .afterQuotedValue tag | .selfClosing tag => MayClose tag names
  | .attributeName attr | .afterAttributeName attr | .beforeAttributeValue attr
  | .quotedValue _ attr | .unquotedValue attr | .valueReference _ attr _ =>
    MayClose attr.tag names

theorem Reads.data {names : List String} (free : Free names) : Reads .data names :=
  ⟨names, free, rfl⟩

theorem Reads.free {names : List String} (reads : Reads .data names) : Free names := by
  obtain ⟨outer, free, rfl⟩ := reads
  exact free

theorem Reads.congr {mode other : TextMode} {names : List String} (reads : Reads mode names)
    (same : other.element? = mode.element?) : Reads other names := by
  rw [Reads, same]
  exact reads

theorem MayClose.free {tag : OpenTag} {names : List String} (free : Free names) :
    MayClose tag names :=
  ⟨names, free, .inl rfl⟩

/-- What a step of the lexer gives goes with the elements that it leaves open. -/
def Confines (builder : Builder) (step : LexerStep) : Prop :=
  Confined (step.2.foldl Builder.push builder).names step.1

namespace Confines

open LexerState

variable {builder : Builder} {mode : TextMode} {tag : OpenTag} {attr : OpenAttribute}

/-- A step without tags leaves the same elements open. -/
theorem calm {step : LexerStep} (others : ∀ token ∈ step.2, token.isTag = false)
    (confined : Confined builder.names step.1) : Confines builder step := by
  rw [Confines, Builder.names_foldl_push others]
  exact confined

theorem silently {state : LexerState} (confined : Confined builder.names state) :
    Confines builder (silently state) :=
  calm nofun confined

theorem saying {state : LexerState} {text : List Char} (confined : Confined builder.names state) :
    Confines builder (saying state text) :=
  calm (fun token member => by rw [List.mem_singleton.mp member]; rfl) confined

/-! ## Text -/

theorem ofScript {element : String} {phase next : ScriptPhase} {text : List Char}
    (reads : Reads (.script element phase) builder.names) :
    Confines builder (LexerState.saying (.content (.script element next)) text) :=
  saying (reads.congr rfl)

theorem stepEscaped {element : String} {phase : ScriptPhase}
    (reads : Reads (.script element phase) builder.names) (dashes : Nat) (c : Char) :
    Confines builder (stepEscaped element dashes c) := by
  unfold LexerState.stepEscaped
  split
  · exact silently (reads.congr rfl)
  · exact ofScript reads

theorem stepPlainScript {element : String} {phase : ScriptPhase}
    (reads : Reads (.script element phase) builder.names) (c : Char) :
    Confines builder (stepPlainScript element c) := by
  unfold LexerState.stepPlainScript
  dsimp only
  split
  · exact silently (reads.congr rfl)
  · exact ofScript reads

theorem stepScript {element : String} {phase : ScriptPhase}
    (reads : Reads (.script element phase) builder.names) (c : Char) :
    Confines builder (stepScript element phase c) := by
  unfold LexerState.stepScript
  dsimp only
  split
  · exact stepPlainScript reads c
  · split
    · exact ofScript reads
    · exact stepPlainScript reads c
  · exact stepEscaped reads _ c
  · split
    · exact ofScript reads
    split
    · exact ofScript reads
    · exact stepEscaped reads 0 c
  · exact ofScript reads
  · split
    · exact ofScript reads
    · exact ofScript reads
  · split
    · exact ofScript reads
    split
    · exact ofScript reads
    · exact ofScript reads

theorem stepContent (reads : Reads mode builder.names) (c : Char) :
    Confines builder (stepContent mode c) := by
  cases mode with
  | data | escapable element =>
    unfold LexerState.stepContent
    dsimp only
    split
    · exact silently reads
    split
    · exact silently reads
    · exact saying reads
  | script element phase => exact stepScript reads c

theorem stepContentAfter (reads : Reads mode builder.names) (text : List Char) (c : Char) :
    Confines builder (stepContentAfter text mode c) := by
  have same : (builder.push (.text (String.ofList text))).names = builder.names :=
    Builder.names_push_of_not_isTag rfl
  have after : Reads mode (builder.push (.text (String.ofList text))).names := by rwa [same]
  exact stepContent after c

/-! ## Tags -/

/-- A start tag opens the element that its text mode belongs to. -/
theorem reads_startTag (free : Free builder.names) (name : String)
    (attributes : List (String × String)) (selfClosing : Bool) :
    Reads (modeOf name selfClosing) (builder.push (.startTag name attributes selfClosing)).names := by
  rw [Builder.names_startTag]
  unfold modeOf
  by_cases raw : rawTextElements.contains name = true
  · have notVoid : isVoid name = false := by
      rw [List.contains_iff_mem] at raw
      simp only [rawTextElements, List.mem_cons, List.not_mem_nil, or_false] at raw
      obtain rfl | rfl | rfl | rfl := raw <;> decide
    rw [raw, notVoid]
    cases selfClosing with
    | true => exact Reads.data free
    | false =>
      refine ⟨builder.names, free, ?_⟩
      simp only [Bool.not_true, Bool.or_self, Bool.false_eq_true, if_false]
      split <;> rfl
  · have opened : Free (name :: builder.names) := by
      refine List.forall_mem_cons.mpr ⟨fun listed => ?_, free⟩
      exact raw (List.contains_iff_mem.mpr listed)
    rw [Bool.not_eq_true] at raw
    rw [raw, Bool.not_false, Bool.or_true, if_pos rfl]
    split
    · exact Reads.data free
    · exact Reads.data opened

/-- The end tag of an element with raw text closes it, and no end tag opens one. -/
theorem free_endTag (mayClose : MayClose tag builder.names) :
    Free (builder.push (.endTag (String.ofList tag.name.reverse))).names := by
  obtain ⟨outer, free, rfl | ⟨-, head⟩⟩ := mayClose
  · obtain ⟨count, left⟩ := builder.exists_names_endTag (String.ofList tag.name.reverse)
    rw [left]
    exact free.drop count
  · rw [Builder.names_endTag_head head]
    exact free

theorem closeTag (mayClose : MayClose tag builder.names) (selfClosing : Bool) :
    Confines builder (closeTag tag selfClosing) := by
  unfold LexerState.closeTag Confines
  dsimp only
  by_cases closing : tag.closing = true
  · rw [if_pos closing]
    exact Reads.data (free_endTag mayClose)
  · rw [if_neg closing]
    obtain ⟨outer, free, rfl | ⟨contrary, -⟩⟩ := mayClose
    · exact reads_startTag free _ _ selfClosing
    · exact absurd contrary closing

theorem stepBeforeAttributeName (mayClose : MayClose tag builder.names) (c : Char) :
    Confines builder (stepBeforeAttributeName tag c) := by
  unfold LexerState.stepBeforeAttributeName
  split
  · exact silently mayClose
  split
  · exact silently mayClose
  split
  · exact closeTag mayClose false
  · exact silently mayClose

theorem stepQuotedValue (mayClose : MayClose attr.tag builder.names) (quote c : Char) :
    Confines builder (stepQuotedValue quote attr c) := by
  unfold LexerState.stepQuotedValue
  split
  · exact silently mayClose
  split
  · exact silently mayClose
  · exact silently mayClose

theorem stepUnquotedValue (mayClose : MayClose attr.tag builder.names) (c : Char) :
    Confines builder (stepUnquotedValue attr c) := by
  have kept : MayClose (keepAttribute attr) builder.names := mayClose
  unfold LexerState.stepUnquotedValue
  split
  · exact silently mayClose
  split
  · exact closeTag kept false
  split
  · exact silently mayClose
  · exact silently mayClose

theorem pushValue (text : List Char) (mayClose : MayClose attr.tag builder.names) :
    MayClose (text.foldl pushValue attr).tag builder.names := by
  rwa [tag_foldl_pushValue]

/-! ## Comments and declarations -/

theorem commenting (free : Free builder.names) (text : List Char) :
    Confines builder (commenting text) :=
  calm (fun token member => by rw [List.mem_singleton.mp member]; rfl) (Reads.data free)

theorem stepBogusComment (free : Free builder.names) (text : List Char) (c : Char) :
    Confines builder (stepBogusComment text c) := by
  unfold LexerState.stepBogusComment
  split
  · exact commenting free text
  · exact silently free

theorem stepDeclaration (free : Free builder.names) (seen : List Char) (c : Char) :
    Confines builder (stepDeclaration seen c) := by
  unfold LexerState.stepDeclaration
  split
  · exact silently free
  split
  · exact silently free
  split
  · exact silently free
  split
  · exact silently free
  · exact stepBogusComment free seen c

theorem stepComment (free : Free builder.names) (text : List Char) (c : Char) :
    Confines builder (stepComment text c) := by
  unfold LexerState.stepComment
  split
  · exact silently free
  · exact silently free

theorem stepCommentTail (free : Free builder.names) (text : List Char) (tail : CommentTail)
    (c : Char) : Confines builder (stepCommentTail text tail c) := by
  cases tail with
  | start | startDash | bang =>
    unfold LexerState.stepCommentTail
    dsimp only
    split
    · exact silently free
    split
    · exact commenting free text
    · exact stepComment free _ c
  | none => exact stepComment free text c
  | dash =>
    unfold LexerState.stepCommentTail
    dsimp only
    split
    · exact silently free
    · exact stepComment free _ c
  | dashes =>
    unfold LexerState.stepCommentTail
    dsimp only
    split
    · exact commenting free text
    split
    · exact silently free
    split
    · exact silently free
    · exact stepComment free _ c

/-! ## Any character -/

theorem stepLessThan (reads : Reads mode builder.names) (c : Char) :
    Confines builder (stepLessThan mode c) := by
  unfold LexerState.stepLessThan
  split
  · exact silently reads
  split
  · split
    · exact silently reads.free
    split
    · exact silently reads.free
    split
    · exact silently reads.free
    · exact stepContentAfter reads _ c
  · split
    · exact ofScript reads
    · exact stepContentAfter reads _ c
  · split
    · exact ofScript reads
    · exact stepContentAfter reads _ c
  · exact stepContentAfter reads _ c

theorem stepEndTagOpen (reads : Reads mode builder.names) (c : Char) :
    Confines builder (stepEndTagOpen mode c) := by
  cases mode with
  | data =>
    unfold LexerState.stepEndTagOpen
    dsimp only
    split
    · exact silently reads.free
    split
    · exact silently reads
    · exact stepBogusComment reads.free [] c
  | escapable element | script element phase =>
    unfold LexerState.stepEndTagOpen
    dsimp only
    split
    · exact silently reads
    · exact stepContentAfter reads _ c

/-- The name of the element in an end tag is that of the innermost open element. -/
theorem stepRawEndTag (reads : Reads mode builder.names) (name : List Char) (c : Char) :
    Confines builder (stepRawEndTag mode name c) := by
  unfold LexerState.stepRawEndTag
  split
  · exact silently reads
  split
  · next ends =>
    rw [Bool.and_eq_true] at ends
    refine stepBeforeAttributeName ?_ c
    obtain ⟨outer, free, names⟩ := reads
    refine ⟨outer, free, .inr ⟨rfl, ?_⟩⟩
    cases mode with
    | data => cases ends.1
    | escapable element | script element phase =>
      simp only [endsText, beq_iff_eq] at ends
      rw [names, ends.1, String.ofList_toList]
      rfl
  · exact stepContentAfter reads _ c

theorem step_attributeName (mayClose : MayClose attr.tag builder.names) (c : Char) :
    Confines builder ((attributeName attr).step c) := by
  have kept : MayClose (keepAttribute attr) builder.names := mayClose
  unfold LexerState.step
  dsimp only
  split
  · exact silently mayClose
  split
  · exact silently mayClose
  split
  · exact stepBeforeAttributeName kept c
  · exact silently mayClose

theorem step_afterAttributeName (mayClose : MayClose attr.tag builder.names) (c : Char) :
    Confines builder ((afterAttributeName attr).step c) := by
  have kept : MayClose (keepAttribute attr) builder.names := mayClose
  unfold LexerState.step
  dsimp only
  split
  · exact silently mayClose
  split
  · exact silently mayClose
  · exact stepBeforeAttributeName kept c

theorem step_beforeAttributeValue (mayClose : MayClose attr.tag builder.names) (c : Char) :
    Confines builder ((beforeAttributeValue attr).step c) := by
  unfold LexerState.step
  dsimp only
  split
  · exact silently mayClose
  split
  · exact silently mayClose
  · exact stepUnquotedValue mayClose c

/-- What ends a reference is read as a character of the value, or ends the value as well. -/
theorem step_valueReference (mayClose : MayClose attr.tag builder.names) (quote : Option Char)
    (reference : Reference) (c : Char) :
    Confines builder ((valueReference quote attr reference).step c) := by
  unfold LexerState.step
  dsimp only
  split
  · exact silently mayClose
  · next text consumed _ =>
    have pushed := pushValue text mayClose
    split
    · cases quote <;> exact silently pushed
    · cases quote with
      | none => exact stepUnquotedValue pushed c
      | some quote => exact stepQuotedValue pushed quote c

theorem step {state : LexerState} (confined : Confined builder.names state) (c : Char) :
    Confines builder (state.step c) := by
  cases state with
  | content mode => exact stepContent confined c
  | contentReference mode reference =>
    unfold LexerState.step
    dsimp only
    split
    · exact silently confined
    · exact saying confined
    · exact stepContentAfter confined _ c
  | lessThan mode => exact stepLessThan confined c
  | endTagOpen mode => exact stepEndTagOpen confined c
  | rawEndTag mode name => exact stepRawEndTag confined name c
  | tagName tag =>
    unfold LexerState.step
    dsimp only
    split
    · exact stepBeforeAttributeName (.free confined) c
    · exact silently confined
  | beforeAttributeName tag | afterQuotedValue tag => exact stepBeforeAttributeName confined c
  | attributeName attr => exact step_attributeName confined c
  | afterAttributeName attr => exact step_afterAttributeName confined c
  | beforeAttributeValue attr => exact step_beforeAttributeValue confined c
  | quotedValue quote attr => exact stepQuotedValue confined quote c
  | unquotedValue attr => exact stepUnquotedValue confined c
  | valueReference quote attr reference => exact step_valueReference confined quote reference c
  | selfClosing tag =>
    unfold LexerState.step
    dsimp only
    split
    · exact closeTag confined true
    · exact stepBeforeAttributeName confined c
  | declaration seen => exact stepDeclaration confined seen c
  | doctype =>
    unfold LexerState.step
    dsimp only
    split
    · exact calm (fun token member => by rw [List.mem_singleton.mp member]; rfl)
        (Reads.data confined)
    · exact silently confined
  | comment text tail => exact stepCommentTail confined text tail c
  | bogusComment text => exact stepBogusComment confined text c

theorem advance {state : LexerState} (confined : Confined builder.names state)
    (text : List Char) : Confines builder (state.advance text) := by
  induction text generalizing state builder with
  | nil => exact confined
  | cons c text ih =>
    rw [advance_cons, Confines, List.foldl_append]
    exact ih (step confined c)

end Confines

end LiveMarkup
