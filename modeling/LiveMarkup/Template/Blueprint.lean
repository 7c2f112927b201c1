import LiveMarkup.Markup.Node

/-! # Blueprints

A blueprint is what a literal is turned into once: the forest that every copy starts from, and for
each dynamic value the part of that forest it belongs to.  Part `i` describes where value `i`
goes. -/

namespace LiveMarkup

open Markup

/-- Child indices that lead from the roots of a forest to one node. -/
abbrev Path :=
  List Nat

namespace Path

/-- The indices with slashes between them. -/
def text (path : Path) : String :=
  "/".intercalate (path.map toString)

/-- Whether the path leads to one of the roots. -/
def isRoot (path : Path) : Bool :=
  path.length == 1

end Path

/-- A dynamic value that is the whole value of an attribute. -/
structure AttributePart where
  /-- The way to the element. -/
  path : Path
  /-- The name as the parser gives it, usually in small letters. -/
  name : String
  /-- The name as its author wrote it. -/
  rawName : String
  deriving DecidableEq, Repr

/-- Where one dynamic value goes. -/
inductive Part where
  | attribute (part : AttributePart)
  /-- Content behind the empty text at the end of the path, the anchor. -/
  | node (path : Path)
  deriving DecidableEq, Repr

def Part.path : Part → Path
  | .attribute part => part.path
  | .node path => path

/-- The forest of a literal without its dynamic attributes and with an empty text for each dynamic
piece of content, and the parts. -/
structure Blueprint where
  forest : Forest
  parts : List Part
  deriving DecidableEq, Repr

end LiveMarkup
