/-! # The vocabulary of markup

The few facts about characters, element names and namespaces that reading and writing markup share.
All of them are about ASCII: letters outside it have no case here. -/

namespace LiveMarkup.Markup

/-- Space, tab, line feed, form feed and carriage return separate the pieces of a tag. -/
def isBlank (c : Char) : Bool :=
  c == ' ' || c == '\t' || c == '\n' || c == '\x0C' || c == '\r'

/-- A name with its capital letters made small. -/
def lowerCase (name : String) : String :=
  name.map Char.toLower

/-- Elements without content and without an end tag. -/
def voidElements : List String :=
  ["area", "base", "br", "col", "embed", "hr", "img", "input", "link", "meta", "param", "source",
    "track", "wbr"]

def isVoid (name : String) : Bool :=
  voidElements.contains name

/-- Elements whose content is text alone, whatever markup it looks like. -/
def rawTextElements : List String :=
  ["script", "style", "textarea", "title"]

/-- Elements with raw text in which character references are read nevertheless. -/
def escapableElements : List String :=
  ["textarea", "title"]

/-- The namespace of an `svg` element and of everything inside it. -/
def svgNamespace : String :=
  "http://www.w3.org/2000/svg"

end LiveMarkup.Markup
