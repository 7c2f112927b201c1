import LiveMarkup.Markup.Reference
import LiveMarkup.Markup.Token
import LiveMarkup.Markup.Vocabulary

/-! # From markup to tokens

The standard tokenizer of markup as an automaton over single characters: `step` takes a state and a
character to the next state and the tokens that are complete by then, and `finish` says what a state
still holds at the end of the text.  Hence the tokens of a text depend on a front part of it only
through the state behind that part.

A start tag of an element with raw text switches to the text mode of that element, until an end tag
of the same name.  Texts are passed on character by character, and mistakes are passed over: no forest
depends on them.  Names and texts that are still being read are kept with the last character first. -/

namespace LiveMarkup.Markup

/-! ## States -/

/-- Where a script stands with respect to the comments that may be written around and in it.  A
dash count says how many dashes come immediately before, two at most. -/
inductive ScriptPhase where
  | plain
  /-- Behind the less-than and exclamation marks of a comment, and perhaps its first dash. -/
  | opening (dash : Bool)
  /-- Inside a comment. -/
  | escaped (dashes : Nat)
  /-- Behind a less-than sign and these letters inside a comment. -/
  | naming (word : List Char)
  /-- Inside an element named `script` inside a comment. -/
  | nested (dashes : Nat)
  /-- Behind a less-than sign in there. -/
  | nestedLessThan
  /-- Behind the start of an end tag in there, and these letters. -/
  | leaving (word : List Char)
  deriving DecidableEq, Repr

/-- How text outside of tags is read. -/
inductive TextMode where
  | data
  /-- The text of the named element, with character references. -/
  | escapable (element : String)
  /-- The text of the named element, without character references. -/
  | script (element : String) (phase : ScriptPhase)
  deriving DecidableEq, Repr

/-- A tag that is being read.  The attributes are collected with the last one first. -/
structure OpenTag where
  closing : Bool
  name : List Char
  attributes : List (String × String)
  deriving DecidableEq, Repr

/-- An attribute that is being read. -/
structure OpenAttribute where
  tag : OpenTag
  name : List Char
  value : List Char
  deriving DecidableEq, Repr

/-- What a comment ends with so far, which is part of it only if the comment goes on. -/
inductive CommentTail where
  /-- The comment has just begun. -/
  | start
  | startDash
  | none
  | dash
  | dashes
  | bang
  deriving DecidableEq, Repr

inductive LexerState where
  | content (mode : TextMode)
  | contentReference (mode : TextMode) (reference : Reference)
  | lessThan (mode : TextMode)
  | endTagOpen (mode : TextMode)
  /-- Behind what may be the end tag of a raw text element. -/
  | rawEndTag (mode : TextMode) (name : List Char)
  | tagName (tag : OpenTag)
  | beforeAttributeName (tag : OpenTag)
  | attributeName (attr : OpenAttribute)
  | afterAttributeName (attr : OpenAttribute)
  | beforeAttributeValue (attr : OpenAttribute)
  | quotedValue (quote : Char) (attr : OpenAttribute)
  | unquotedValue (attr : OpenAttribute)
  /-- In a reference in a value, which is quoted if there is a quote. -/
  | valueReference (quote : Option Char) (attr : OpenAttribute) (reference : Reference)
  | afterQuotedValue (tag : OpenTag)
  | selfClosing (tag : OpenTag)
  /-- Behind the exclamation mark of a declaration, and this much of what it declares. -/
  | declaration (seen : List Char)
  | doctype
  | comment (text : List Char) (tail : CommentTail)
  | bogusComment (text : List Char)
  deriving DecidableEq, Repr

/-- The state behind a character, and the tokens that are complete by then. -/
abbrev LexerStep :=
  LexerState × List Token

namespace LexerState

/-- The state at the start of a text. -/
def start : LexerState :=
  .content .data

/-- A step without a token. -/
def silently (state : LexerState) : LexerStep :=
  (state, [])

/-- A step that passes on some text. -/
def saying (state : LexerState) (text : List Char) : LexerStep :=
  (state, [.text (String.ofList text)])

/-- A step that ends a comment. -/
def commenting (text : List Char) : LexerStep :=
  (start, [.comment (String.ofList text.reverse)])

/-- Outside of plain text, the character zero is replaced. -/
def visible (c : Char) : Char :=
  if c = '\x00' then Reference.replacement else c

/-! ## Text -/

/-- One character of a script outside of comments. -/
def stepPlainScript (element : String) (c : Char) : LexerStep :=
  let mode := .script element .plain
  if c = '<' then silently (.lessThan mode)
  else saying (.content mode) [visible c]

/-- One character of a comment in a script. -/
def stepEscaped (element : String) (dashes : Nat) (c : Char) : LexerStep :=
  if c = '<' then silently (.lessThan (.script element (.escaped 0)))
  else
    let phase :=
      if c = '-' then .escaped (min (dashes + 1) 2)
      else if c = '>' ∧ dashes = 2 then .plain
      else .escaped 0
    saying (.content (.script element phase)) [visible c]

/-- One character of an element in a comment in a script. -/
def stepNested (element : String) (dashes : Nat) (c : Char) : LexerStep :=
  let phase :=
    if c = '<' then .nestedLessThan
    else if c = '-' then .nested (min (dashes + 1) 2)
    else if c = '>' ∧ dashes = 2 then .plain
    else .nested 0
  saying (.content (.script element phase)) [visible c]

/-- Whether a word that ends at this character may be a tag name. -/
def endsWord (c : Char) : Bool :=
  isBlank c || c == '/' || c == '>'

/-- Whether letters collected in a script name the element that nests in comments. -/
def isScript (word : List Char) : Bool :=
  word.reverse == "script".toList

/-- One character of a script. -/
def stepScript (element : String) (phase : ScriptPhase) (c : Char) : LexerStep :=
  let goOn := fun phase => saying (.content (.script element phase)) [c]
  match phase with
  | .plain => stepPlainScript element c
  | .opening dash =>
    if c = '-' then goOn (if dash then .escaped 2 else .opening true)
    else stepPlainScript element c
  | .escaped dashes => stepEscaped element dashes c
  | .naming word =>
    if endsWord c then goOn (if isScript word then .nested 0 else .escaped 0)
    else if c.isAlpha then goOn (.naming (c.toLower :: word))
    else stepEscaped element 0 c
  | .nested dashes => stepNested element dashes c
  | .nestedLessThan => if c = '/' then goOn (.leaving []) else stepNested element 0 c
  | .leaving word =>
    if endsWord c then goOn (if isScript word then .escaped 0 else .nested 0)
    else if c.isAlpha then goOn (.leaving (c.toLower :: word))
    else stepNested element 0 c

/-- One character of text. -/
def stepContent (mode : TextMode) (c : Char) : LexerStep :=
  match mode with
  | .data =>
    if c = '&' then silently (.contentReference .data .start)
    else if c = '<' then silently (.lessThan .data)
    else saying (.content .data) [c]
  | .escapable element =>
    if c = '&' then silently (.contentReference (.escapable element) .start)
    else if c = '<' then silently (.lessThan (.escapable element))
    else saying (.content (.escapable element)) [visible c]
  | .script element phase => stepScript element phase c

/-- Passes on a text that came before the character, and reads the character in the given mode. -/
def stepContentAfter (text : List Char) (mode : TextMode) (c : Char) : LexerStep :=
  let (state, tokens) := stepContent mode c
  (state, .text (String.ofList text) :: tokens)

/-! ## Tags -/

/-- The text mode behind a start tag. -/
def modeOf (name : String) (selfClosing : Bool) : TextMode :=
  if selfClosing || !rawTextElements.contains name then .data
  else if escapableElements.contains name then .escapable name
  else .script name .plain

/-- Ends a tag.  An end tag has no attributes. -/
def closeTag (tag : OpenTag) (selfClosing : Bool) : LexerStep :=
  let name := String.ofList tag.name.reverse
  if tag.closing then (start, [.endTag name])
  else (.content (modeOf name selfClosing), [.startTag name tag.attributes.reverse selfClosing])

/-- The tag with an attribute that is complete. -/
def keepAttribute (attr : OpenAttribute) : OpenTag :=
  { attr.tag with
    attributes :=
      (String.ofList attr.name.reverse, String.ofList attr.value.reverse) ::
        attr.tag.attributes }

/-- A character of a tag name or an attribute name, as it is kept. -/
def nameChar (c : Char) : Char :=
  visible c.toLower

/-- The attribute with one more character in its value. -/
def pushValue (attr : OpenAttribute) (c : Char) : OpenAttribute :=
  { attr with value := c :: attr.value }

/-- One character where an attribute may begin. -/
def stepBeforeAttributeName (tag : OpenTag) (c : Char) : LexerStep :=
  if isBlank c then silently (.beforeAttributeName tag)
  else if c = '/' then silently (.selfClosing tag)
  else if c = '>' then closeTag tag false
  else silently (.attributeName ⟨tag, [nameChar c], []⟩)

/-- One character of a quoted value. -/
def stepQuotedValue (quote : Char) (attr : OpenAttribute) (c : Char) : LexerStep :=
  if c = quote then silently (.afterQuotedValue (keepAttribute attr))
  else if c = '&' then silently (.valueReference (some quote) attr .start)
  else silently (.quotedValue quote (pushValue attr (visible c)))

/-- One character of a value without quotes. -/
def stepUnquotedValue (attr : OpenAttribute) (c : Char) : LexerStep :=
  if isBlank c then silently (.beforeAttributeName (keepAttribute attr))
  else if c = '>' then closeTag (keepAttribute attr) false
  else if c = '&' then silently (.valueReference none attr .start)
  else silently (.unquotedValue (pushValue attr (visible c)))

/-- One character of a value, quoted or not. -/
def stepValue (quote : Option Char) (attr : OpenAttribute) (c : Char) : LexerStep :=
  match quote with
  | some quote => stepQuotedValue quote attr c
  | none => stepUnquotedValue attr c

/-- Where reading goes on behind a reference in a value. -/
def inValue (quote : Option Char) (attr : OpenAttribute) : LexerState :=
  match quote with
  | some quote => .quotedValue quote attr
  | none => .unquotedValue attr

/-! ## Comments and declarations -/

/-- One character of a comment, with nothing pending. -/
def stepComment (text : List Char) (c : Char) : LexerStep :=
  if c = '-' then silently (.comment text .dash)
  else silently (.comment (visible c :: text) .none)

/-- One character behind what a comment may end with. -/
def stepCommentTail (text : List Char) (tail : CommentTail) (c : Char) : LexerStep :=
  match tail with
  | .start =>
    if c = '-' then silently (.comment text .startDash)
    else if c = '>' then commenting text
    else stepComment text c
  | .startDash =>
    if c = '-' then silently (.comment text .dashes)
    else if c = '>' then commenting text
    else stepComment ('-' :: text) c
  | .none => stepComment text c
  | .dash =>
    if c = '-' then silently (.comment text .dashes)
    else stepComment ('-' :: text) c
  | .dashes =>
    if c = '>' then commenting text
    else if c = '!' then silently (.comment text .bang)
    else if c = '-' then silently (.comment ('-' :: text) .dashes)
    else stepComment ('-' :: '-' :: text) c
  | .bang =>
    if c = '-' then silently (.comment ('!' :: '-' :: '-' :: text) .dash)
    else if c = '>' then commenting text
    else stepComment ('!' :: '-' :: '-' :: text) c

/-- One character of a comment that ends at the next greater-than sign. -/
def stepBogusComment (text : List Char) (c : Char) : LexerStep :=
  if c = '>' then commenting text
  else silently (.bogusComment (visible c :: text))

/-- The word that declares a document type. -/
def doctypeWord : List Char :=
  "doctype".toList

/-- One character of what a declaration declares: a comment, or a document type in letters of either
case.  Anything else makes it a bogus comment. -/
def stepDeclaration (seen : List Char) (c : Char) : LexerStep :=
  if c = '-' ∧ seen = [] then silently (.declaration ['-'])
  else if c = '-' ∧ seen = ['-'] then silently (.comment [] .start)
  else if doctypeWord = ((c :: seen).map Char.toLower).reverse then silently .doctype
  else if ((c :: seen).map Char.toLower).reverse.isPrefixOf doctypeWord then
    silently (.declaration (c :: seen))
  else stepBogusComment seen c

/-! ## The automaton -/

/-- One character behind a less-than sign. -/
def stepLessThan (mode : TextMode) (c : Char) : LexerStep :=
  if c = '/' then silently (.endTagOpen mode)
  else
    match mode with
    | .data =>
      if c = '!' then silently (.declaration [])
      else if c = '?' then silently (.bogusComment ['?'])
      else if c.isAlpha then silently (.tagName ⟨false, [c.toLower], []⟩)
      else stepContentAfter ['<'] mode c
    | .script element .plain =>
      if c = '!' then saying (.content (.script element (.opening false))) ['<', '!']
      else stepContentAfter ['<'] mode c
    | .script element (.escaped _) =>
      if c.isAlpha then saying (.content (.script element (.naming [c.toLower]))) ['<', c]
      else stepContentAfter ['<'] mode c
    | _ => stepContentAfter ['<'] mode c

/-- One character behind the start of an end tag. -/
def stepEndTagOpen (mode : TextMode) (c : Char) : LexerStep :=
  match mode with
  | .data =>
    if c.isAlpha then silently (.tagName ⟨true, [c.toLower], []⟩)
    else if c = '>' then silently start
    else stepBogusComment [] c
  | _ =>
    if c.isAlpha then silently (.rawEndTag mode [c])
    else stepContentAfter ['<', '/'] mode c

/-- Whether a name ends the text of the element that the mode belongs to. -/
def endsText (mode : TextMode) (name : List Char) : Bool :=
  match mode with
  | .data => false
  | .escapable element | .script element _ => (name.map Char.toLower).reverse == element.toList

/-- One character behind what may be the end tag of a raw text element. -/
def stepRawEndTag (mode : TextMode) (name : List Char) (c : Char) : LexerStep :=
  if c.isAlpha then silently (.rawEndTag mode (c :: name))
  else if endsText mode name && endsWord c then
    stepBeforeAttributeName ⟨true, name.map Char.toLower, []⟩ c
  else stepContentAfter ('<' :: '/' :: name.reverse) mode c

/-- The automaton: one more character. -/
def step (state : LexerState) (c : Char) : LexerStep :=
  match state with
  | .content mode => stepContent mode c
  | .contentReference mode reference =>
    match reference.step false c with
    | .more reference => silently (.contentReference mode reference)
    | .done text true => saying (.content mode) text
    | .done text false => stepContentAfter text mode c
  | .lessThan mode => stepLessThan mode c
  | .endTagOpen mode => stepEndTagOpen mode c
  | .rawEndTag mode name => stepRawEndTag mode name c
  | .tagName tag =>
    if endsWord c then stepBeforeAttributeName tag c
    else silently (.tagName { tag with name := nameChar c :: tag.name })
  | .beforeAttributeName tag => stepBeforeAttributeName tag c
  | .attributeName attr =>
    if isBlank c then silently (.afterAttributeName attr)
    else if c = '=' then silently (.beforeAttributeValue attr)
    else if endsWord c then stepBeforeAttributeName (keepAttribute attr) c
    else silently (.attributeName { attr with name := nameChar c :: attr.name })
  | .afterAttributeName attr =>
    if isBlank c then silently state
    else if c = '=' then silently (.beforeAttributeValue attr)
    else stepBeforeAttributeName (keepAttribute attr) c
  | .beforeAttributeValue attr =>
    if isBlank c then silently state
    else if c = '"' ∨ c = '\'' then silently (.quotedValue c attr)
    else stepUnquotedValue attr c
  | .quotedValue quote attr => stepQuotedValue quote attr c
  | .unquotedValue attr => stepUnquotedValue attr c
  | .valueReference quote attr reference =>
    match reference.step true c with
    | .more reference => silently (.valueReference quote attr reference)
    | .done text consumed =>
      let attr := text.foldl pushValue attr
      if consumed then silently (inValue quote attr) else stepValue quote attr c
  | .afterQuotedValue tag => stepBeforeAttributeName tag c
  | .selfClosing tag => if c = '>' then closeTag tag true else stepBeforeAttributeName tag c
  | .declaration seen => stepDeclaration seen c
  | .doctype => if c = '>' then (start, [.doctype]) else silently .doctype
  | .comment text tail => stepCommentTail text tail c
  | .bogusComment text => stepBogusComment text c

/-- What a state still holds when the text ends.  A tag that is cut off yields nothing. -/
def finish (state : LexerState) : List Token :=
  match state with
  | .contentReference _ reference => [.text (String.ofList (reference.finish false))]
  | .lessThan _ => [.text (String.ofList ['<'])]
  | .endTagOpen _ => [.text (String.ofList ['<', '/'])]
  | .rawEndTag _ name => [.text (String.ofList ('<' :: '/' :: name.reverse))]
  | .declaration text | .comment text _ | .bogusComment text =>
    [.comment (String.ofList text.reverse)]
  | .doctype => [.doctype]
  | _ => []

/-- The tokens of a text that is read from the given state to its end. -/
def run (state : LexerState) : List Char → List Token
  | [] => state.finish
  | c :: cs =>
    let (next, tokens) := state.step c
    tokens ++ next.run cs

end LexerState

/-- A carriage return, with or without a line feed behind it, is one line feed. -/
def normalizeLines : List Char → List Char
  | '\r' :: '\n' :: rest => '\n' :: normalizeLines rest
  | '\r' :: rest => '\n' :: normalizeLines rest
  | c :: rest => c :: normalizeLines rest
  | [] => []

/-- The tokens of markup. -/
def tokens (markup : String) : List Token :=
  LexerState.start.run (normalizeLines markup.toList)

end LiveMarkup.Markup
