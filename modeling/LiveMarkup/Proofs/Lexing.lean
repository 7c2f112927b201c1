import LiveMarkup.Markup.Forest
import LiveMarkup.Proofs.Sketch

/-! # Reading a sketch

What the lexer makes of a filled sketch does not depend on the words in it: the state that it is in,
and the tokens that it has found, are filled sketches themselves.  Holes may get lost on the way, but
none comes up twice.

`Outlines` says so of a single step.  Tests on names are the only place where a word could make a
difference, and no name that matters has a brace in it (`exists_modeOf`). -/

namespace LiveMarkup

open Markup

/-! ## Tokens -/

/-- Tokens that can stand for other tokens wherever a forest is built of them. -/
def Interchangeable (tokens tokens' : List Token) : Prop :=
  ∀ builder : Builder, tokens.foldl Builder.push builder = tokens'.foldl Builder.push builder

namespace Interchangeable

variable {first first' second second' : List Token}

theorem refl (tokens : List Token) : Interchangeable tokens tokens :=
  fun _ => rfl

theorem append (front : Interchangeable first first') (back : Interchangeable second second') :
    Interchangeable (first ++ second) (first' ++ second') := by
  intro builder
  rw [List.foldl_append, List.foldl_append, front builder, back]

theorem appendText_append (text more : String) (nodes : List Node) :
    Builder.appendText (text ++ more) nodes =
      Builder.appendText more (Builder.appendText text nodes) := by
  unfold Builder.appendText
  by_cases noText : text = ""
  · simp [noText]
  by_cases noMore : more = ""
  · simp [noMore, noText]
  have neither : text ++ more ≠ "" := by
    intro empty
    have lengths := congrArg String.toList empty
    simp [noText] at lengths
  rw [if_neg neither, if_neg noMore, if_neg noText]
  split <;> simp [String.append_assoc]

theorem edit_edit (builder : Builder) (change later : List Node → List Node) :
    (builder.edit change).edit later = builder.edit (later ∘ change) := by
  obtain ⟨opened, roots⟩ := builder
  cases opened <;> rfl

/-- A text can be passed on character by character. -/
theorem texts (text : List Char) :
    Interchangeable (text.map fun c => .text (String.ofList [c])) [.text (String.ofList text)] := by
  induction text with
  | nil =>
    rintro ⟨opened, roots⟩
    cases opened <;> rfl
  | cons c text ih =>
    intro builder
    rw [List.map_cons, List.foldl_cons, ih]
    simp only [List.foldl_cons, List.foldl_nil, Builder.push, edit_edit]
    congr 1
    funext nodes
    rw [Function.comp_apply, ← appendText_append, ← String.ofList_append]
    rfl

end Interchangeable

/-- An attribute of which the name and the value are sketches. -/
abbrev PairSketch :=
  Sketch × Sketch

namespace PairSketch

def fill (wording : Wording) (pair : PairSketch) : String × String :=
  (String.ofList (Sketch.fill wording pair.1), String.ofList (Sketch.fill wording pair.2))

def holes (pair : PairSketch) : List Nat :=
  Sketch.holes pair.1 ++ Sketch.holes pair.2

end PairSketch

inductive TokenSketch where
  | startTag (name : Sketch) (attributes : List PairSketch) (selfClosing : Bool)
  | endTag (name : Sketch)
  | text (data : Sketch)
  | comment (data : Sketch)
  | doctype
  | mistake

namespace TokenSketch

def fill (wording : Wording) : TokenSketch → Token
  | startTag name attributes selfClosing =>
    .startTag (String.ofList (Sketch.fill wording name)) (attributes.map (PairSketch.fill wording))
      selfClosing
  | endTag name => .endTag (String.ofList (Sketch.fill wording name))
  | text data => .text (String.ofList (Sketch.fill wording data))
  | comment data => .comment (String.ofList (Sketch.fill wording data))
  | doctype => .doctype
  | mistake => .mistake

def holes : TokenSketch → List Nat
  | startTag name attributes _ => Sketch.holes name ++ attributes.flatMap PairSketch.holes
  | endTag name => Sketch.holes name
  | text data | comment data => Sketch.holes data
  | doctype | mistake => []

/-- A token without holes. -/
def ofToken : Token → TokenSketch
  | .startTag name attributes selfClosing =>
    startTag (.ofText name.toList)
      (attributes.map fun pair => (.ofText pair.1.toList, .ofText pair.2.toList)) selfClosing
  | .endTag name => endTag (.ofText name.toList)
  | .text data => text (.ofText data.toList)
  | .comment data => comment (.ofText data.toList)
  | .doctype => doctype
  | .mistake => mistake

@[simp] theorem fill_ofToken (wording : Wording) (token : Token) :
    fill wording (ofToken token) = token := by
  cases token <;> simp [ofToken, fill, PairSketch.fill, Function.comp_def]

@[simp] theorem holes_ofToken (token : Token) : holes (ofToken token) = [] := by
  cases token <;> simp [ofToken, holes, PairSketch.holes, List.flatMap_map]

end TokenSketch

/-! ## States -/

/-- A tag that is being read, with its attributes as they are written. -/
structure TagSketch where
  closing : Bool
  name : Sketch
  attributes : List PairSketch

/-- An attribute that is being read. -/
structure AttributeSketch where
  tag : TagSketch
  name : Sketch
  value : Sketch

def TagSketch.fill (wording : Wording) (tag : TagSketch) : OpenTag where
  closing := tag.closing
  name := (Sketch.fill wording tag.name).reverse
  attributes := (tag.attributes.map (PairSketch.fill wording)).reverse

def TagSketch.holes (tag : TagSketch) : List Nat :=
  Sketch.holes tag.name ++ tag.attributes.flatMap PairSketch.holes

theorem Markup.LexerState.foldl_pushValue (text : List Char) (attr : OpenAttribute) :
    text.foldl LexerState.pushValue attr = { attr with value := text.reverse ++ attr.value } := by
  induction text generalizing attr with
  | nil => rfl
  | cons c text ih => simp [ih, LexerState.pushValue]

/-- What is put into a value is no part of the tag. -/
theorem Markup.LexerState.tag_foldl_pushValue (text : List Char) (attr : OpenAttribute) :
    (text.foldl LexerState.pushValue attr).tag = attr.tag := by
  rw [LexerState.foldl_pushValue]

namespace AttributeSketch

def fill (wording : Wording) (attr : AttributeSketch) : OpenAttribute where
  tag := attr.tag.fill wording
  name := (Sketch.fill wording attr.name).reverse
  value := (Sketch.fill wording attr.value).reverse

def holes (attr : AttributeSketch) : List Nat :=
  attr.tag.holes ++ (Sketch.holes attr.name ++ Sketch.holes attr.value)

/-- The tag with the attribute, which is complete. -/
def keep (attr : AttributeSketch) : TagSketch :=
  { attr.tag with attributes := attr.tag.attributes ++ [(attr.name, attr.value)] }

@[simp] theorem fill_keep (wording : Wording) (attr : AttributeSketch) :
    attr.keep.fill wording = LexerState.keepAttribute (attr.fill wording) := by
  simp [keep, TagSketch.fill, fill, LexerState.keepAttribute, PairSketch.fill]

@[simp] theorem holes_keep (attr : AttributeSketch) : attr.keep.holes = attr.holes := by
  simp [keep, TagSketch.holes, holes, PairSketch.holes]

/-- The attribute with more at the end of its name. -/
def pushName (attr : AttributeSketch) (more : Sketch) : AttributeSketch :=
  { attr with name := attr.name ++ more }

/-- The attribute with more at the end of its value. -/
def pushValue (attr : AttributeSketch) (more : Sketch) : AttributeSketch :=
  { attr with value := attr.value ++ more }

/-- The text of a reference goes to the value. -/
theorem fill_pushValue_ofText (wording : Wording) (attr : AttributeSketch)
    (text : List Char) :
    (attr.pushValue (.ofText text)).fill wording =
      text.foldl LexerState.pushValue (attr.fill wording) := by
  simp [LexerState.foldl_pushValue, fill, pushValue]

end AttributeSketch

/-- The states that have read nothing that would be kept. -/
def Markup.LexerState.isBare : LexerState → Bool
  | content _ | contentReference _ _ | lessThan _ | endTagOpen _ | rawEndTag _ _ | declaration _
  | doctype => true
  | _ => false

/-- The quotes of values. -/
def isQuote (c : Char) : Bool :=
  c == '"' || c == '\''

inductive LexerSketch where
  | bare (state : LexerState) (bare : state.isBare = true)
  | tagName (tag : TagSketch)
  | beforeAttributeName (tag : TagSketch)
  | attributeName (attr : AttributeSketch)
  | afterAttributeName (attr : AttributeSketch)
  | beforeAttributeValue (attr : AttributeSketch)
  | quotedValue (quote : Char) (quotes : isQuote quote = true) (attr : AttributeSketch)
  | unquotedValue (attr : AttributeSketch)
  | valueReference (quote : Option Char) (quotes : quote.all isQuote = true)
      (attr : AttributeSketch) (reference : Reference)
  | afterQuotedValue (tag : TagSketch)
  | selfClosing (tag : TagSketch)
  | comment (text : Sketch) (tail : CommentTail)
  | bogusComment (text : Sketch)

namespace LexerSketch

def fill (wording : Wording) : LexerSketch → LexerState
  | bare state _ => state
  | tagName tag => .tagName (tag.fill wording)
  | beforeAttributeName tag => .beforeAttributeName (tag.fill wording)
  | attributeName attr => .attributeName (attr.fill wording)
  | afterAttributeName attr => .afterAttributeName (attr.fill wording)
  | beforeAttributeValue attr => .beforeAttributeValue (attr.fill wording)
  | quotedValue quote _ attr => .quotedValue quote (attr.fill wording)
  | unquotedValue attr => .unquotedValue (attr.fill wording)
  | valueReference quote _ attr reference => .valueReference quote (attr.fill wording) reference
  | afterQuotedValue tag => .afterQuotedValue (tag.fill wording)
  | selfClosing tag => .selfClosing (tag.fill wording)
  | comment text tail => .comment (Sketch.fill wording text).reverse tail
  | bogusComment text => .bogusComment (Sketch.fill wording text).reverse

def holes : LexerSketch → List Nat
  | bare _ _ => []
  | tagName tag | beforeAttributeName tag | afterQuotedValue tag | selfClosing tag => tag.holes
  | attributeName attr | afterAttributeName attr | beforeAttributeValue attr
  | quotedValue _ _ attr | unquotedValue attr | valueReference _ _ attr _ => attr.holes
  | comment text _ | bogusComment text => Sketch.holes text

end LexerSketch

/-! ## Steps -/

/-- No index comes up more often in the first list than in the second one. -/
def Within (inner outer : List Nat) : Prop :=
  ∀ index, inner.count index ≤ outer.count index

theorem Within.refl (holes : List Nat) : Within holes holes :=
  fun _ => Nat.le_refl _

/-- A step for each wording is outlined if there are sketches of the state and of the tokens that it
leads to, with holes from the given ones only. -/
def Outlines (holes : List Nat) (step : Wording → LexerStep) : Prop :=
  ∃ (sketch : LexerSketch) (tokens : List TokenSketch),
    (∀ wording, (step wording).1 = sketch.fill wording ∧
      Interchangeable (step wording).2 (tokens.map (TokenSketch.fill wording))) ∧
    Within (sketch.holes ++ tokens.flatMap TokenSketch.holes) holes

namespace Outlines

variable {holes more : List Nat} {step : Wording → LexerStep}

theorem of_eq (sketch : LexerSketch) (tokens : List TokenSketch)
    (same : ∀ wording, step wording = (sketch.fill wording, tokens.map (TokenSketch.fill wording)))
    (within : Within (sketch.holes ++ tokens.flatMap TokenSketch.holes) holes) :
    Outlines holes step :=
  ⟨sketch, tokens, fun wording => by rw [same]; exact ⟨rfl, .refl _⟩, within⟩

theorem silently (sketch : LexerSketch) {step : Wording → LexerStep}
    (same : ∀ wording, step wording = LexerState.silently (sketch.fill wording))
    (within : Within sketch.holes holes) : Outlines holes step :=
  .of_eq sketch [] same (by simpa using within)

theorem ite {condition : Prop} [Decidable condition] {yes no : Wording → LexerStep}
    (positive : condition → Outlines holes yes) (negative : ¬ condition → Outlines holes no) :
    Outlines holes fun wording => if condition then yes wording else no wording := by
  by_cases holds : condition
  · simp only [if_pos holds]
    exact positive holds
  · simp only [if_neg holds]
    exact negative holds

/-- A step that words have no part in. -/
theorem of_bare {step : LexerStep} (bare : step.1.isBare = true) :
    Outlines holes fun _ => step := by
  refine .of_eq (.bare step.1 bare) (step.2.map .ofToken) (fun wording => ?_) fun index => ?_
  · simp [LexerSketch.fill, Function.comp_def]
  · simp [LexerSketch.holes, List.flatMap_eq_nil_iff.mpr]

end Outlines

namespace LexerSketch

open LexerState

/-! ## One character of text -/

theorem isBare_stepScript (element : String) (phase : ScriptPhase) (c : Char) :
    (stepScript element phase c).1.isBare = true := by
  unfold stepScript stepPlainScript stepEscaped stepNested
  dsimp only
  split <;> (repeat' split) <;> rfl

theorem isBare_stepContent (mode : TextMode) (c : Char) :
    (stepContent mode c).1.isBare = true := by
  cases mode with
  | data =>
    unfold stepContent
    dsimp only
    split
    · rfl
    split <;> rfl
  | escapable element =>
    unfold stepContent
    dsimp only
    split
    · rfl
    split <;> rfl
  | script element phase => exact isBare_stepScript element phase c

theorem isBare_stepContentAfter (text : List Char) (mode : TextMode) (c : Char) :
    (stepContentAfter text mode c).1.isBare = true :=
  isBare_stepContent mode c

/-! ## One character of a tag -/

/-- No element with raw text has a name with a word in it. -/
theorem exists_modeOf (name : Sketch) (closed : Bool) :
    ∃ mode, ∀ wording, modeOf (String.ofList (Sketch.fill wording name)) closed = mode := by
  by_cases whole : Sketch.holes name = []
  · refine ⟨modeOf (String.ofList (Sketch.fill .placeholders name)) closed, fun wording => ?_⟩
    have same : Sketch.fill wording name = Sketch.fill .placeholders name :=
      Sketch.fill_of_holes_eq_nil whole
    rw [same]
  · refine ⟨.data, fun wording => ?_⟩
    have brace : '{' ∈ Sketch.fill wording name := Sketch.brace_mem_fill whole
    have other : rawTextElements.contains (String.ofList (Sketch.fill wording name)) = false := by
      rw [← Bool.not_eq_true, List.contains_iff_mem]
      intro member
      simp only [rawTextElements, List.mem_cons, List.not_mem_nil, or_false] at member
      obtain same | same | same | same := member <;>
      · rw [← String.toList_inj, String.toList_ofList] at same
        rw [same] at brace
        exact absurd brace (by decide)
    rw [modeOf, other]
    simp

theorem outlines_closeTag (tag : TagSketch) (closed : Bool) :
    Outlines tag.holes fun wording => closeTag (tag.fill wording) closed := by
  obtain ⟨closing, name, attributes⟩ := tag
  cases closing with
  | true =>
    refine .of_eq (.bare start rfl) [.endTag name] (fun wording => ?_) fun index => ?_
    · simp [closeTag, TagSketch.fill, LexerSketch.fill, TokenSketch.fill]
    · simp [LexerSketch.holes, TokenSketch.holes, TagSketch.holes, List.count_append]
  | false =>
    obtain ⟨mode, same⟩ := exists_modeOf name closed
    refine .of_eq (.bare (.content mode) rfl) [.startTag name attributes closed]
      (fun wording => ?_) fun index => ?_
    · simp [closeTag, TagSketch.fill, LexerSketch.fill, TokenSketch.fill, same]
    · simp [LexerSketch.holes, TokenSketch.holes, TagSketch.holes, List.count_append]

theorem outlines_stepBeforeAttributeName (tag : TagSketch) (c : Char) :
    Outlines tag.holes fun wording => stepBeforeAttributeName (tag.fill wording) c := by
  refine .ite (fun _ => ?_) fun _ => .ite (fun _ => ?_) fun _ => .ite (fun _ => ?_) fun _ => ?_
  · exact .silently (.beforeAttributeName tag) (fun _ => rfl) (.refl _)
  · exact .silently (.selfClosing tag) (fun _ => rfl) (.refl _)
  · exact outlines_closeTag tag false
  · refine .silently (.attributeName ⟨tag, [.char (nameChar c)], []⟩) (fun _ => rfl) fun index => ?_
    simp [LexerSketch.holes, AttributeSketch.holes]

theorem outlines_stepQuotedValue (quote : Char) (quotes : isQuote quote = true)
    (attr : AttributeSketch) (c : Char) :
    Outlines attr.holes fun wording => stepQuotedValue quote (attr.fill wording) c := by
  refine .ite (fun _ => ?_) fun _ => .ite (fun _ => ?_) fun _ => ?_
  · refine .silently (.afterQuotedValue attr.keep) (fun wording => ?_) fun index => ?_
    · simp [LexerSketch.fill]
    · simp [LexerSketch.holes]
  · exact .silently (.valueReference (some quote) quotes attr .start) (fun _ => rfl) (.refl _)
  · refine .silently (.quotedValue quote quotes (attr.pushValue [.char (visible c)]))
      (fun wording => ?_) fun index => ?_
    · simp [LexerSketch.fill, AttributeSketch.fill, AttributeSketch.pushValue, pushValue]
    · simp [LexerSketch.holes, AttributeSketch.holes, AttributeSketch.pushValue]

theorem outlines_stepUnquotedValue (attr : AttributeSketch) (c : Char) :
    Outlines attr.holes fun wording => stepUnquotedValue (attr.fill wording) c := by
  refine .ite (fun _ => ?_) fun _ => .ite (fun _ => ?_) fun _ => .ite (fun _ => ?_) fun _ => ?_
  · refine .silently (.beforeAttributeName attr.keep) (fun wording => ?_) fun index => ?_
    · simp [LexerSketch.fill]
    · simp [LexerSketch.holes]
  · simp only [← AttributeSketch.fill_keep, ← AttributeSketch.holes_keep]
    exact outlines_closeTag attr.keep false
  · exact .silently (.valueReference none rfl attr .start) (fun _ => rfl) (.refl _)
  · refine .silently (.unquotedValue (attr.pushValue [.char (visible c)]))
      (fun wording => ?_) fun index => ?_
    · simp [LexerSketch.fill, AttributeSketch.fill, AttributeSketch.pushValue, pushValue]
    · simp [LexerSketch.holes, AttributeSketch.holes, AttributeSketch.pushValue]

theorem outlines_stepValue (quote : Option Char) (quotes : quote.all isQuote = true)
    (attr : AttributeSketch) (c : Char) :
    Outlines attr.holes fun wording => stepValue quote (attr.fill wording) c := by
  cases quote with
  | none => exact outlines_stepUnquotedValue attr c
  | some quote => exact outlines_stepQuotedValue quote quotes attr c

/-! ## One character of a comment -/

theorem outlines_commenting (text : Sketch) :
    Outlines (Sketch.holes text) fun wording => commenting (Sketch.fill wording text).reverse := by
  refine .of_eq (.bare start rfl) [.comment text] (fun wording => ?_) fun index => ?_
  · simp [commenting, LexerSketch.fill, TokenSketch.fill]
  · simp [LexerSketch.holes, TokenSketch.holes]

theorem outlines_stepBogusComment (text : Sketch) (c : Char) :
    Outlines (Sketch.holes text) fun wording =>
      stepBogusComment (Sketch.fill wording text).reverse c := by
  refine .ite (fun _ => outlines_commenting text) fun _ => ?_
  refine .silently (.bogusComment (text ++ [.char (visible c)])) (fun wording => ?_) fun index => ?_
  · simp [LexerSketch.fill]
  · simp [LexerSketch.holes]

theorem outlines_stepComment (text : Sketch) (c : Char) :
    Outlines (Sketch.holes text) fun wording =>
      stepComment (Sketch.fill wording text).reverse c := by
  refine .ite (fun _ => ?_) fun _ => ?_
  · exact .silently (.comment text .dash) (fun _ => rfl) (.refl _)
  · refine .silently (.comment (text ++ [.char (visible c)]) .none) (fun wording => ?_)
      fun index => ?_
    · simp [LexerSketch.fill]
    · simp [LexerSketch.holes]

theorem outlines_stepCommentTail (text : Sketch) (tail : CommentTail) (c : Char) :
    Outlines (Sketch.holes text) fun wording =>
      stepCommentTail (Sketch.fill wording text).reverse tail c := by
  have behind (more : List Char) : Outlines (Sketch.holes text) fun wording =>
      stepComment (more.reverse ++ (Sketch.fill wording text).reverse) c := by
    simpa using outlines_stepComment (text ++ .ofText more) c
  cases tail with
  | start =>
    refine .ite (fun _ => ?_) fun _ => .ite (fun _ => outlines_commenting text) fun _ => behind []
    exact .silently (.comment text .startDash) (fun _ => rfl) (.refl _)
  | startDash =>
    refine .ite (fun _ => ?_) fun _ => .ite (fun _ => outlines_commenting text) fun _ => behind ['-']
    exact .silently (.comment text .dashes) (fun _ => rfl) (.refl _)
  | none => exact behind []
  | dash =>
    refine .ite (fun _ => ?_) fun _ => behind ['-']
    exact .silently (.comment text .dashes) (fun _ => rfl) (.refl _)
  | dashes =>
    refine .ite (fun _ => outlines_commenting text) fun _ => .ite (fun _ => ?_) fun _ =>
      .ite (fun _ => ?_) fun _ => behind ['-', '-']
    · exact .silently (.comment text .bang) (fun _ => rfl) (.refl _)
    · refine .silently (.comment (text ++ [.char '-']) .dashes) (fun wording => ?_) fun index => ?_
      · simp [LexerSketch.fill]
      · simp [LexerSketch.holes]
  | bang =>
    refine .ite (fun _ => ?_) fun _ => .ite (fun _ => outlines_commenting text) fun _ =>
      behind ['-', '-', '!']
    refine .silently (.comment (text ++ .ofText ['-', '-', '!']) .dash) (fun wording => ?_)
      fun index => ?_
    · simp [LexerSketch.fill]
    · simp [LexerSketch.holes]

/-! ## One character in a state that keeps nothing -/

theorem outlines_tagName (closing : Bool) (c : Char) :
    Outlines [] fun _ => silently (.tagName ⟨closing, [c], []⟩) := by
  refine .silently (.tagName ⟨closing, [.char c], []⟩) (fun _ => rfl) fun index => ?_
  simp [LexerSketch.holes, TagSketch.holes]

theorem outlines_stepBogusComment_bare (text : List Char) (c : Char) :
    Outlines [] fun _ => stepBogusComment text c := by
  simpa using outlines_stepBogusComment (.ofText text.reverse) c

theorem outlines_stepLessThan (mode : TextMode) (c : Char) :
    Outlines [] fun _ => stepLessThan mode c := by
  unfold stepLessThan
  split
  · exact .of_bare rfl
  split
  · split
    · exact .of_bare rfl
    split
    · refine .silently (.bogusComment [.char '?']) (fun _ => rfl) fun index => ?_
      simp [LexerSketch.holes]
    split
    · exact outlines_tagName false _
    · exact .of_bare (isBare_stepContentAfter _ _ _)
  · split
    · exact .of_bare rfl
    · exact .of_bare (isBare_stepContentAfter _ _ _)
  · split
    · exact .of_bare rfl
    · exact .of_bare (isBare_stepContentAfter _ _ _)
  · exact .of_bare (isBare_stepContentAfter _ _ _)

theorem outlines_stepEndTagOpen (mode : TextMode) (c : Char) :
    Outlines [] fun _ => stepEndTagOpen mode c := by
  unfold stepEndTagOpen
  split
  · split
    · exact outlines_tagName true _
    split
    · exact .of_bare rfl
    · exact outlines_stepBogusComment_bare [] c
  · split
    · exact .of_bare rfl
    · exact .of_bare (isBare_stepContentAfter _ _ _)

theorem outlines_stepRawEndTag (mode : TextMode) (name : List Char) (c : Char) :
    Outlines [] fun _ => stepRawEndTag mode name c := by
  unfold stepRawEndTag
  split
  · exact .of_bare rfl
  split
  · have tag := outlines_stepBeforeAttributeName ⟨true, .ofText (name.map Char.toLower).reverse, []⟩ c
    simpa [TagSketch.fill, TagSketch.holes] using tag
  · exact .of_bare (isBare_stepContentAfter _ _ _)

theorem outlines_stepDeclaration (seen : List Char) (c : Char) :
    Outlines [] fun _ => stepDeclaration seen c := by
  unfold stepDeclaration
  split
  · exact .of_bare rfl
  split
  · exact .silently (.comment [] .start) (fun _ => rfl) (.refl _)
  split
  · exact .of_bare rfl
  split
  · exact .of_bare rfl
  · exact outlines_stepBogusComment_bare seen c

theorem outlines_step_bare {state : LexerState} (bare : state.isBare = true) (c : Char) :
    Outlines [] fun _ => state.step c := by
  cases state with
  | content mode => exact .of_bare (isBare_stepContent mode c)
  | contentReference mode reference =>
    simp only [LexerState.step]
    split
    · exact .of_bare rfl
    · exact .of_bare rfl
    · exact .of_bare (isBare_stepContentAfter _ _ _)
  | lessThan mode => exact outlines_stepLessThan mode c
  | endTagOpen mode => exact outlines_stepEndTagOpen mode c
  | rawEndTag mode name => exact outlines_stepRawEndTag mode name c
  | declaration seen => exact outlines_stepDeclaration seen c
  | doctype =>
    simp only [LexerState.step]
    split <;> exact .of_bare rfl
  | _ => cases bare

/-! ## One character of markup -/

theorem outlines_step (sketch : LexerSketch) (c : Char) :
    Outlines sketch.holes fun wording => (sketch.fill wording).step c := by
  cases sketch with
  | bare state bare => exact outlines_step_bare bare c
  | tagName tag =>
    refine .ite (fun _ => outlines_stepBeforeAttributeName tag c) fun _ => ?_
    refine .silently (.tagName { tag with name := tag.name ++ [.char (nameChar c)] })
      (fun wording => ?_) fun index => ?_
    · simp [LexerSketch.fill, TagSketch.fill]
    · simp [LexerSketch.holes, TagSketch.holes]
  | beforeAttributeName tag | afterQuotedValue tag => exact outlines_stepBeforeAttributeName tag c
  | selfClosing tag =>
    exact .ite (fun _ => outlines_closeTag tag true) fun _ => outlines_stepBeforeAttributeName tag c
  | attributeName attr =>
    refine .ite (fun _ => ?_) fun _ => .ite (fun _ => ?_) fun _ => .ite (fun _ => ?_) fun _ => ?_
    · exact .silently (.afterAttributeName attr) (fun _ => rfl) (.refl _)
    · exact .silently (.beforeAttributeValue attr) (fun _ => rfl) (.refl _)
    · simp only [← AttributeSketch.fill_keep]
      simpa [holes] using outlines_stepBeforeAttributeName attr.keep c
    · refine .silently (.attributeName (attr.pushName [.char (nameChar c)]))
        (fun wording => ?_) fun index => ?_
      · simp [LexerSketch.fill, AttributeSketch.fill, AttributeSketch.pushName]
      · simp [LexerSketch.holes, AttributeSketch.holes, AttributeSketch.pushName]
  | afterAttributeName attr =>
    refine .ite (fun _ => ?_) fun _ => .ite (fun _ => ?_) fun _ => ?_
    · exact .silently (.afterAttributeName attr) (fun _ => rfl) (.refl _)
    · exact .silently (.beforeAttributeValue attr) (fun _ => rfl) (.refl _)
    · simp only [← AttributeSketch.fill_keep]
      simpa [holes] using outlines_stepBeforeAttributeName attr.keep c
  | beforeAttributeValue attr =>
    refine .ite (fun _ => ?_) fun _ => .ite (fun quotes => ?_) fun _ => ?_
    · exact .silently (.beforeAttributeValue attr) (fun _ => rfl) (.refl _)
    · exact .silently (.quotedValue c (by simpa [isQuote] using quotes) attr) (fun _ => rfl)
        (.refl _)
    · exact outlines_stepUnquotedValue attr c
  | quotedValue quote quotes attr => exact outlines_stepQuotedValue quote quotes attr c
  | unquotedValue attr => exact outlines_stepUnquotedValue attr c
  | valueReference quote quotes attr reference =>
    simp only [fill, LexerState.step]
    cases outcome : reference.step true c with
    | more reference =>
      exact .silently (.valueReference quote quotes attr reference) (fun _ => rfl) (.refl _)
    | done text consumed =>
      have values : (attr.pushValue (.ofText text)).holes = attr.holes := by
        simp [AttributeSketch.holes, AttributeSketch.pushValue]
      have within : Within (attr.pushValue (.ofText text)).holes attr.holes := by
        rw [values]
        exact .refl _
      simp only [← AttributeSketch.fill_pushValue_ofText]
      cases consumed with
      | false =>
        -- The character that ends the reference is read once more, as one of the value.
        simpa [holes, values] using outlines_stepValue quote quotes (attr.pushValue (.ofText text)) c
      | true =>
        cases quote with
        | none =>
          exact .silently (.unquotedValue (attr.pushValue (.ofText text))) (fun _ => rfl) within
        | some quote =>
          exact .silently (.quotedValue quote quotes (attr.pushValue (.ofText text))) (fun _ => rfl) within
  | comment text tail => exact outlines_stepCommentTail text tail c
  | bogusComment text => exact outlines_stepBogusComment text c

end LexerSketch

end LiveMarkup
