import LiveMarkup.Markup.Node

/-! # Writing markup

The text of a forest.  Characters that would be read as markup are written as references, different
ones in texts and in attribute values. -/

namespace LiveMarkup.Markup

/-- A character of a text. -/
def escapeTextChar (c : Char) : List Char :=
  match c with
  | '&' => "&amp;".toList
  | '<' => "&lt;".toList
  | '>' => "&gt;".toList
  | '\u00A0' => "&nbsp;".toList
  | c => [c]

/-- A character of an attribute value between double quotes. -/
def escapeValueChar (c : Char) : List Char :=
  match c with
  | '&' => "&amp;".toList
  | '"' => "&quot;".toList
  | '\u00A0' => "&nbsp;".toList
  | c => [c]

/-- An attribute, with the blank before it. -/
def attributeHtml (pair : String × String) : List Char :=
  ' ' :: pair.1.toList ++ '=' :: '"' :: pair.2.toList.flatMap escapeValueChar ++ ['"']

/-- A start tag. -/
def startTagHtml (name : String) (attributes : List (String × String)) : List Char :=
  '<' :: name.toList ++ attributes.flatMap attributeHtml ++ ['>']

/-- An end tag. -/
def endTagHtml (name : String) : List Char :=
  '<' :: '/' :: name.toList ++ ['>']

/-- A comment. -/
def commentHtml (data : String) : List Char :=
  "<!--".toList ++ data.toList ++ "-->".toList

mutual

/-- The markup of a node.  A void element has no end tag, and its content is left out. -/
def Node.html : Node → List Char
  | .text data => data.toList.flatMap escapeTextChar
  | .comment data => commentHtml data
  | .element name _ attributes children =>
    startTagHtml name attributes ++
      if isVoid name then [] else Forest.htmlChars children ++ endTagHtml name

/-- The markup of sibling nodes. -/
def Forest.htmlChars : List Node → List Char
  | [] => []
  | node :: rest => node.html ++ Forest.htmlChars rest

end

/-- The markup of a forest. -/
def Forest.html (forest : Forest) : String :=
  String.ofList (Forest.htmlChars forest)

mutual

/-- The texts in a node.  A comment holds none. -/
def Node.content : Node → String
  | .text data => data
  | .comment _ => ""
  | .element _ _ _ children => Forest.content children

/-- The texts in sibling nodes, one after another. -/
def Forest.content : List Node → String
  | [] => ""
  | node :: rest => node.content ++ Forest.content rest

end

end LiveMarkup.Markup
