import LiveMarkup.Markup.Html
import LiveMarkup.Proofs.Rewording

/-! # Printing templates

A draft is a template as a tree: elements with static and dynamic attributes, texts, and holes for
content.  It is printed like any markup, with a break between two segments for each value.  This
module has the printing (`Draft.segments`), the drafts for which it makes sense (`Draft.Proper`), and
the blueprint that a reader of the draft expects (`Draft.blueprint`).

The blueprint is that of a stencil (`stencil_blueprint`), which is what a survey works with. -/

namespace LiveMarkup

open Markup

/-- A template before it is printed: sibling nodes, of which each holds the ones behind it.  An
attribute without a value is dynamic. -/
inductive Draft where
  | done
  | element (name : String) (attributes : List (String × Option String)) (children rest : Draft)
  | text (data : String) (rest : Draft)
  /-- Content that is dynamic. -/
  | hole (rest : Draft)
  deriving DecidableEq, Repr

/-! ## Printing -/

/-- What is printed: characters, and breaks where values go. -/
abbrev Print :=
  List (Option Char)

/-- The segments between the breaks. -/
def Print.segments : Print → List (List Char)
  | [] => [[]]
  | none :: rest => [] :: Print.segments rest
  | some c :: rest =>
    match Print.segments rest with
    | [] => [[c]]
    | segment :: more => (c :: segment) :: more

/-- Characters without a break. -/
def Print.ofChars (text : List Char) : Print :=
  text.map some

/-- The value of an attribute. -/
def valuePrint : Option String → Print
  | some value => .ofChars (value.toList.flatMap escapeValueChar)
  | none => [none]

/-- An attribute, with the blank before it. -/
def attributePrint (pair : String × Option String) : Print :=
  some ' ' :: (Print.ofChars pair.1.toList ++
    some '=' :: some '"' :: (valuePrint pair.2 ++ [some '"']))

namespace Draft

def print : Draft → Print
  | done => []
  | element name attributes children rest =>
    some '<' :: (Print.ofChars name.toList ++ (attributes.flatMap attributePrint ++ some '>' ::
      ((if isVoid name then [] else children.print ++ Print.ofChars (endTagHtml name)) ++
        rest.print)))
  | text data rest => Print.ofChars (data.toList.flatMap escapeTextChar) ++ rest.print
  | hole rest => none :: rest.print

/-- The segments of the literal. -/
def segments (draft : Draft) : List String :=
  (Print.segments draft.print).map String.ofList

end Draft

/-! ## Drafts that can be printed -/

/-- A small letter, and small letters, digits and dashes. -/
def isElementName (name : List Char) : Bool :=
  match name with
  | first :: rest => first.isLower && rest.all fun c => c.isLower || c.isDigit || c == '-'
  | [] => false

/-- Letters, digits and dashes. -/
def isNameChar (c : Char) : Bool :=
  c.isAlphanum || c == '-'

/-- A letter, and letters, digits and dashes. -/
def isAttributeName (name : List Char) : Bool :=
  match name with
  | first :: rest => first.isAlpha && rest.all isNameChar
  | [] => false

/-- A static text or value that is read as it is printed: without the character zero, without carriage
returns, and without the start of a placeholder. -/
def isPrintable (data : List Char) : Bool :=
  data.all (fun c => c != '\x00' && c != '\r') && !Placeholder.occursIn data

theorem isPrintable_iff {data : List Char} :
    isPrintable data = true ↔
      (∀ c ∈ data, c ≠ '\x00' ∧ c ≠ '\r') ∧ Placeholder.occursIn data = false := by
  simp [isPrintable]

/-- An attribute has a name, and a value that can be printed if it is static. -/
def isPrintableAttribute (pair : String × Option String) : Bool :=
  isAttributeName pair.1.toList && pair.2.all fun value => isPrintable value.toList

theorem isPrintableAttribute_iff {name : String} {value : Option String} :
    isPrintableAttribute (name, value) = true ↔
      isAttributeName name.toList = true ∧ ∀ data ∈ value, isPrintable data.toList = true := by
  simp [isPrintableAttribute, Option.all_eq_true]

namespace Draft

def startsWithText : Draft → Bool
  | text _ _ => true
  | _ => false

/-- The elements hold no raw text and void ones are empty, the attributes of each have different names,
texts are not empty and do not meet, and everything static can be printed. -/
def Proper : Draft → Prop
  | done => True
  | element name attributes children rest =>
    (isElementName name.toList = true ∧ name ∉ rawTextElements ∧
        (isVoid name = true → children = done)) ∧
      ((∀ pair ∈ attributes, isPrintableAttribute pair = true) ∧
        (attributes.map fun pair => lowerCase pair.1).Nodup) ∧
      children.Proper ∧ rest.Proper
  | text data rest =>
    (data ≠ "" ∧ isPrintable data.toList = true ∧ rest.startsWithText = false) ∧ rest.Proper
  | hole rest => rest.Proper

instance decidableProper : (draft : Draft) → Decidable draft.Proper
  | done => inferInstanceAs (Decidable True)
  | element _ _ children rest =>
    have := decidableProper children
    have := decidableProper rest
    inferInstanceAs (Decidable (_ ∧ _ ∧ _ ∧ _))
  | text _ rest =>
    have := decidableProper rest
    inferInstanceAs (Decidable (_ ∧ _))
  | hole rest => decidableProper rest

end Draft

/-! ## What is expected of the literal -/

/-- The static attributes, with names in small letters and in their order. -/
def staticAttributes (attributes : List (String × Option String)) : List (String × String) :=
  (attributes.filterMap fun pair => pair.2.map (lowerCase pair.1, ·)).insertionSort byName

/-- The names of the dynamic attributes, in small letters and as they are printed. -/
def dynamicAttributes (attributes : List (String × Option String)) : List (String × String) :=
  (attributes.filter (·.2.isNone)).map fun pair => (lowerCase pair.1, pair.1)

/-- The namespace of an element in the given one. -/
def spaceOf (name : String) (space : Option String) : Option String :=
  if name = "svg" then some svgNamespace else space

namespace Draft

/-- The number of values. -/
def count : Draft → Nat
  | done => 0
  | element _ attributes children rest =>
    (dynamicAttributes attributes).length + (children.count + rest.count)
  | text _ rest => rest.count
  | hole rest => rest.count + 1

/-- The tree as a forest in the given namespace, with an empty text for each hole. -/
def forest (space : Option String) : Draft → Forest
  | done => []
  | element name attributes children rest =>
    .element name (spaceOf name space) (staticAttributes attributes)
        (children.forest (spaceOf name space)) :: rest.forest space
  | text data rest => .text data :: rest.forest space
  | hole rest => .text "" :: rest.forest space

/-- The dynamic places in the order in which they are printed, where the first node is the child of its
parent with the given index. -/
def parts (parent : Path) (index : Nat) : Draft → List Part
  | done => []
  | element _ attributes children rest =>
    ((dynamicAttributes attributes).map fun pair =>
        .attribute { path := parent ++ [index], name := pair.1, rawName := pair.2 }) ++
      (children.parts (parent ++ [index]) 0 ++ rest.parts parent (index + 1))
  | text _ rest => rest.parts parent (index + 1)
  | hole rest => .node (parent ++ [index]) :: rest.parts parent (index + 1)

def blueprint (draft : Draft) : Blueprint :=
  { forest := draft.forest none, parts := draft.parts [] 0 }

/-- The draft as the stencil of its blueprint. -/
def stencil (space : Option String) : Draft → Stencil
  | done => .done
  | element name attributes children rest =>
    .element name (spaceOf name space) (staticAttributes attributes) (dynamicAttributes attributes)
      (children.stencil (spaceOf name space)) (rest.stencil space)
  | text data rest => .text data (rest.stencil space)
  | hole rest => .gap (rest.stencil space)

theorem stencil_forest (draft : Draft) (space : Option String) :
    (draft.stencil space).forest = draft.forest space := by
  induction draft generalizing space with
  | done => rfl
  | element name attributes children rest ihChildren ihRest =>
    simp only [stencil, Stencil.forest, forest, ihChildren, ihRest]
  | text data rest ih | hole rest ih => simp only [stencil, Stencil.forest, forest, ih]

theorem stencil_parts (draft : Draft) (space : Option String) (parent : Path) (index : Nat) :
    (draft.stencil space).partsAt parent index = draft.parts parent index := by
  induction draft generalizing space parent index with
  | done => rfl
  | element name attributes children rest ihChildren ihRest =>
    simp only [stencil, Stencil.partsAt, parts, ihChildren, ihRest, Stencil.boundParts]
  | text data rest ih | hole rest ih => simp only [stencil, Stencil.partsAt, parts, ih]

theorem stencil_count (draft : Draft) (space : Option String) :
    (draft.stencil space).count = draft.count := by
  induction draft generalizing space with
  | done => rfl
  | element name attributes children rest ihChildren ihRest =>
    simp only [stencil, Stencil.count, count, ihChildren, ihRest]
  | text data rest ih | hole rest ih => simp only [stencil, Stencil.count, count, ih]

theorem stencil_blueprint (draft : Draft) : (draft.stencil none).blueprint = draft.blueprint := by
  rw [Stencil.blueprint, stencil_forest, stencil_parts, blueprint]

end Draft

end LiveMarkup
