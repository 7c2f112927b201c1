/-! # Tokens of markup

What a reader of markup finds one after another, before any nesting. -/

namespace LiveMarkup.Markup

/-- A stretch of markup.  Names are in small letters, texts have their character references
resolved, and adjacent texts belong together. -/
inductive Token where
  /-- A start tag with its attributes in the order in which they are written. -/
  | startTag (name : String) (attributes : List (String × String)) (selfClosing : Bool)
  | endTag (name : String)
  | text (data : String)
  | comment (data : String)
  | doctype
  /-- A mistake in the markup, behind which reading goes on. -/
  | mistake
  deriving DecidableEq, Repr

end LiveMarkup.Markup
