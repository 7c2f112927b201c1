import LiveMarkup.Markup.Lexer
import LiveMarkup.Markup.Node

/-! # From tokens to a forest

The tokens of markup are nested by a stack of open elements.  Nothing is moved: an end tag closes
the innermost open element of its name with everything opened inside it, a stray end tag is ignored,
and the end of the markup closes what is still open.

`Forest.ofTokens` builds the forest of a sequence of tokens and `Forest.parse` that of a markup. -/

namespace LiveMarkup.Markup

/-! ## Attributes -/

/-- Adds an attribute to attributes sorted by name, unless there is one of that name already. -/
def insertAttribute (name value : String) : List (String × String) → List (String × String)
  | [] => [(name, value)]
  | (other, kept) :: rest =>
    if name < other then (name, value) :: (other, kept) :: rest
    else if name = other then (other, kept) :: rest
    else (other, kept) :: insertAttribute name value rest

/-- The attributes sorted by name.  Of several with one name the first counts. -/
def sortAttributes (attributes : List (String × String)) : List (String × String) :=
  attributes.foldl (fun sorted pair => insertAttribute pair.1 pair.2 sorted) []

/-! ## Open elements -/

/-- An element whose end is still to come, with its last child first. -/
structure OpenElement where
  name : String
  space : Option String
  attributes : List (String × String)
  children : List Node
  deriving DecidableEq, Repr

/-- The element when its end has come. -/
def OpenElement.close (element : OpenElement) : Node :=
  .element element.name element.space element.attributes element.children.reverse

/-- A forest under construction: the open elements, the innermost first, and the finished nodes
outside all of them, the last first. -/
structure Builder where
  openElements : List OpenElement
  roots : List Node
  deriving DecidableEq, Repr

namespace Builder

def empty : Builder :=
  { openElements := [], roots := [] }

/-- Changes the children of the innermost open element, or the roots if no element is open. -/
def edit (builder : Builder) (change : List Node → List Node) : Builder :=
  match builder.openElements with
  | [] => { builder with roots := change builder.roots }
  | innermost :: outer =>
    { builder with
      openElements := { innermost with children := change innermost.children } :: outer }

def append (builder : Builder) (node : Node) : Builder :=
  builder.edit (node :: ·)

/-- Puts a text behind nodes given with the last one first.  It joins a text before it, and an empty
text is none at all. -/
def appendText (data : String) (nodes : List Node) : List Node :=
  if data = "" then nodes
  else
    match nodes with
    | .text before :: rest => .text (before ++ data) :: rest
    | nodes => .text data :: nodes

/-- The namespace of an element that begins here. -/
def spaceFor (builder : Builder) (name : String) : Option String :=
  if name = "svg" then some svgNamespace
  else builder.openElements.head?.bind (·.space)

/-- Closes the innermost open element. -/
def closeInnermost (builder : Builder) : Builder :=
  match builder.openElements with
  | [] => builder
  | innermost :: outer => append { builder with openElements := outer } innermost.close

/-- Closes the given number of open elements. -/
def closeMany (builder : Builder) : Nat → Builder
  | 0 => builder
  | count + 1 => builder.closeInnermost.closeMany count

/-- Takes in one token.  Tags and attributes have their names in small letters already, as the lexer
makes them, so nothing is left to do about that here. -/
def push (builder : Builder) : Token → Builder
  | .startTag name attributes selfClosing =>
    let element : OpenElement :=
      { name, space := builder.spaceFor name, attributes := sortAttributes attributes
        children := [] }
    if selfClosing || isVoid name then builder.append element.close
    else { builder with openElements := element :: builder.openElements }
  | .endTag name =>
    match builder.openElements.findIdx? (·.name == name) with
    | some inner => builder.closeMany (inner + 1)
    | none => builder
  | .text data => builder.edit (appendText data)
  | .comment data => builder.append (.comment data)
  | .doctype | .mistake => builder

/-- The forest when there are no more tokens. -/
def finish (builder : Builder) : Forest :=
  (builder.closeMany builder.openElements.length).roots.reverse

end Builder

namespace Forest

/-- The forest of a sequence of tokens. -/
def ofTokens (tokens : List Token) : Forest :=
  (tokens.foldl Builder.push .empty).finish

/-- The forest of a markup. -/
def parse (markup : String) : Forest :=
  ofTokens (tokens markup)

end Forest

end LiveMarkup.Markup
