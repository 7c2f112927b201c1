import LiveMarkup.Template.Blueprint
import LiveMarkup.Text.Quoted

/-! # Literals and templates

A literal is one place in a program where a template is written; a template is what a catalog makes
of it.  Both have an identity.  Two literals with the same segments are still two literals, and they
get two templates. -/

namespace LiveMarkup

/-- The identity of a literal. -/
structure LiteralId where
  number : Nat
  deriving DecidableEq, Repr

/-- The static segments of one template, as written in one place. -/
structure Literal where
  id : LiteralId
  segments : List String
  deriving DecidableEq, Repr

/-- A description of a literal.  An identity has no meaning to a reader: only whether it has been
asked for is shown. -/
def Literal.describe (literal : Literal) (observed : Bool) : String :=
  let segments := ", ".intercalate (literal.segments.map Text.quoted)
  let id := if observed then "Some(LiteralId(#))" else "None"
  "Literal \x7b segments: [" ++ segments ++ "], id: " ++ id ++ " \x7d"

/-- The identity of a template: the catalog that made it, and the number of templates the catalog
had made before. -/
structure TemplateId where
  catalog : Nat
  serial : Nat
  deriving DecidableEq, Repr

/-- A literal that has been turned into a blueprint. -/
structure Template where
  id : TemplateId
  literal : LiteralId
  segments : List String
  blueprint : Blueprint
  deriving DecidableEq, Repr

end LiveMarkup
