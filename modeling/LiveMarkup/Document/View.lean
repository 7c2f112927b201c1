import LiveMarkup.Document.Document
import LiveMarkup.Markup.Html

/-! # Views of a document

What a part of a document looks like as a forest, and which nodes it consists of.  A tree is at most
as deep as there are nodes, so that many levels are looked at. -/

namespace LiveMarkup.Document

open Markup

/-- The tree at a node, down to the given number of levels.  A text or a comment is shown without
what may be below it. -/
def treeTo (document : Document) : Nat → NodeId → Node
  | 0, _ => .text ""
  | levels + 1, node =>
    match document.cell? node with
    | some ⟨.element name space attributes, _, children⟩ =>
      .element name space attributes (children.map (document.treeTo levels))
    | some ⟨.text data, _, _⟩ => .text data
    | some ⟨.comment data, _, _⟩ => .comment data
    | none => .text ""

/-- The tree at a node. -/
def tree (document : Document) (node : NodeId) : Node :=
  document.treeTo document.size node

/-- The trees below a node. -/
def forest (document : Document) (node : NodeId) : Forest :=
  (document.children node).map document.tree

/-- The markup of what is below a node. -/
def innerHtml (document : Document) (node : NodeId) : String :=
  Forest.html (document.forest node)

/-- The markup of a node. -/
def outerHtml (document : Document) (node : NodeId) : String :=
  Forest.html [document.tree node]

/-- All texts at and below a node, one after another. -/
def textContent (document : Document) (node : NodeId) : String :=
  (document.tree node).content

/-- The numbers of a node and, in parentheses, of all below it, down to the given number of
levels. -/
def layoutTo (document : Document) : Nat → NodeId → String
  | 0, node => toString node.number
  | levels + 1, node =>
    match document.children node with
    | [] => toString node.number
    | children =>
      s!"{node.number}(" ++ " ".intercalate (children.map (document.layoutTo levels)) ++ ")"

/-- Which nodes are at and below a node. -/
def layout (document : Document) (node : NodeId) : String :=
  document.layoutTo document.size node

end LiveMarkup.Document
