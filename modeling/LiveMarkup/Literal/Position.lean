/-! # Where a dynamic value stands

A dynamic value of a literal stands either for the whole value of an attribute or for child content.
Every other place is a `Misplacement`. -/

namespace LiveMarkup

/-- What a dynamic value stands for, as its author wrote it. -/
inductive Position where
  /-- The complete value of an attribute, whose name is spelled `rawName`. -/
  | attribute (rawName : String)
  /-- Content of an element, or of the literal itself. -/
  | child
  deriving DecidableEq, Repr

/-- A place where no dynamic value can stand. -/
inductive Misplacement where
  /-- Inside or instead of a tag name. -/
  | tagName
  /-- Inside an attribute name. -/
  | attributeName
  /-- Instead of a whole attribute. -/
  | wholeAttribute
  /-- Beside other text in the value of the named attribute. -/
  | partialValue (name : String)
  /-- Inside a comment or another declaration. -/
  | comment
  /-- Inside the raw text of the named element. -/
  | rawText (element : String)
  deriving DecidableEq, Repr

/-- The place, in words that go on from "the value is". -/
def Misplacement.describe : Misplacement → String
  | .tagName => "inside a tag name"
  | .attributeName => "inside an attribute name"
  | .wholeAttribute => "in place of an attribute"
  | .partialValue name => s!"in part of the value of attribute `{name}`"
  | .comment => "inside a comment"
  | .rawText element => s!"inside the raw text of <{element}>"

end LiveMarkup
