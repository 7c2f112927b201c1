import LiveMarkup.Proofs.Placeholder
import LiveMarkup.Markup.Node
import Mathlib.Data.List.Perm.Basic

/-! # Differences that do not matter

Two forests can differ in how their texts are divided among neighbours, in the order of attributes and
in what is written for placeholders.  `merge` joins neighbouring texts, `rewriteForest` writes words
for placeholders, and `Alike` relates forests that are equal up to the order of attributes. -/

namespace LiveMarkup

open Markup

namespace Markup

/-! ## Joining texts -/

/-- Puts a text in front of sibling nodes.  It joins a text behind it, and an empty text is none at
all. -/
def joinText (data : String) (nodes : Forest) : Forest :=
  if data = "" then nodes
  else
    match nodes with
    | .text behind :: rest => .text (data ++ behind) :: rest
    | nodes => .text data :: nodes

/-- Puts a node in front of sibling nodes, joining texts. -/
def joinNode : Node → Forest → Forest
  | .text data, rest => joinText data rest
  | first, rest => first :: rest

mutual

/-- Joins the texts inside of a node. -/
def Node.merge : Node → Node
  | .element name space attributes children =>
    .element name space attributes (Forest.merge children)
  | .text data => .text data
  | .comment data => .comment data

/-- Joins texts that meet, and drops empty ones. -/
def Forest.merge : List Node → Forest
  | [] => []
  | first :: rest => joinNode first.merge (Forest.merge rest)

end

@[simp] theorem joinText_empty (nodes : Forest) : joinText "" nodes = nodes := by
  simp [joinText]

theorem joinText_append (first second : String) (nodes : Forest) :
    joinText (first ++ second) nodes = joinText first (joinText second nodes) := by
  by_cases noFirst : first = ""
  · simp [noFirst]
  by_cases noSecond : second = ""
  · simp [noSecond]
  have neither : first ++ second ≠ "" := by
    intro empty
    have lengths := congrArg String.toList empty
    simp [noFirst] at lengths
  unfold joinText
  rw [if_neg neither, if_neg noFirst, if_neg noSecond]
  split <;> simp [String.append_assoc]

@[simp] theorem merge_nil : Forest.merge [] = [] :=
  rfl

@[simp] theorem merge_text (data : String) (rest : Forest) :
    Forest.merge (.text data :: rest) = joinText data (Forest.merge rest) :=
  rfl

@[simp] theorem merge_comment (data : String) (rest : Forest) :
    Forest.merge (.comment data :: rest) = .comment data :: Forest.merge rest :=
  rfl

@[simp] theorem merge_element (name : String) (space : Option String)
    (attributes : List (String × String)) (children rest : Forest) :
    Forest.merge (.element name space attributes children :: rest) =
      .element name space attributes (Forest.merge children) :: Forest.merge rest :=
  rfl

end Markup

/-! ## Words for placeholders -/

namespace Placeholder

variable (word : Nat → List Char)

/-- A text with words in place of its placeholders. -/
def rewriteText (data : String) : String :=
  String.ofList (rewrite word data.toList)

/-- The word for a value that is a placeholder; any other value as it is. -/
def rewriteValue (value : String) : String :=
  match index? value.toList with
  | some index => String.ofList (word index)
  | none => value

mutual

/-- A node with words in place of the placeholders in its texts and values. -/
def rewriteNode : Node → Node
  | .element name space attributes children =>
    .element name space (attributes.map fun pair => (pair.1, rewriteValue word pair.2))
      (rewriteForest children)
  | .text data => .text (rewriteText word data)
  | .comment data => .comment data

/-- Sibling nodes with words in place of the placeholders in their texts and values. -/
def rewriteForest : List Node → Forest
  | [] => []
  | first :: rest => rewriteNode first :: rewriteForest rest

end

theorem rewriteText_of_not_occursIn {data : String} (absent : occursIn data.toList = false) :
    rewriteText word data = data := by
  rw [rewriteText, (Plain.of_not_occursIn absent).rewrite, String.ofList_toList]

end Placeholder

/-! ## The order of attributes -/

/-- Equality of forests up to the order of attributes. -/
inductive Alike : Forest → Forest → Prop where
  | nil : Alike [] []
  | element {name : String} {space : Option String} {attributes attributes' : List (String × String)}
      {children children' rest rest' : Forest} (order : attributes.Perm attributes')
      (inside : Alike children children') (after : Alike rest rest') :
      Alike (.element name space attributes children :: rest)
        (.element name space attributes' children' :: rest')
  | text {data : String} {rest rest' : Forest} (after : Alike rest rest') :
      Alike (.text data :: rest) (.text data :: rest')
  | comment {data : String} {rest rest' : Forest} (after : Alike rest rest') :
      Alike (.comment data :: rest) (.comment data :: rest')

theorem Alike.joinText {first second : Forest} (alike : Alike first second) (data : String) :
    Alike (joinText data first) (joinText data second) := by
  unfold Markup.joinText
  split
  · exact alike
  cases alike with
  | nil => exact .text .nil
  | element order inside after => exact .text (.element order inside after)
  | text after => exact .text after
  | comment after => exact .text (.comment after)

end LiveMarkup
