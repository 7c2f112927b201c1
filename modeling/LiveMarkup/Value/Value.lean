import LiveMarkup.Number.Shortest
import LiveMarkup.Template.Template

/-! # Dynamic values

A dynamic value is what a program supplies for one part of a template.  Most values are primitive and
have a text.  A template or a list stands for content made of further values, and a deferred value is
computed whenever its part is brought up to date. -/

namespace LiveMarkup

/-- A computation that yields a value when it is invoked.  What happens then is up to the
environment; here the computation has only a name. -/
structure Deferred where
  number : Nat
  deriving DecidableEq, Repr

inductive Value where
  | empty
  | text (data : String)
  | integer (number : Int64)
  | float (number : Binary64)
  | bool (flag : Bool)
  /-- A template with a value for each of its parts. -/
  | template (template : Template) (values : List Value)
  | items (values : List Value)
  | deferred (computation : Deferred)
  deriving Inhabited

/-- How a value is rendered. -/
inductive Shape where
  | deferred
  | template
  | items
  | primitive
  deriving DecidableEq, Repr

/-- One use of a template: the template and a value for each of its parts. -/
structure TemplateResult where
  template : Template
  values : List Value

namespace Value

def shape : Value → Shape
  | .deferred _ => .deferred
  | .template _ _ => .template
  | .items _ => .items
  | .empty | .text _ | .integer _ | .float _ | .bool _ => .primitive

/-- Whether a value is primitive, which the empty value is, too. -/
def isPrimitive (value : Value) : Bool :=
  value.shape == .primitive

/-- The text of a primitive value. -/
def primitiveText : Value → Option String
  | .empty => some ""
  | .text data => some data
  | .integer number => some (toString number.toInt)
  | .float number => some number.text
  | .bool flag => some (if flag then "true" else "false")
  | .template _ _ | .items _ | .deferred _ => none

/-- Whether two values are the same primitive, of the same sort and with the same content.  The
empty value is no empty text, and numbers with a fraction are compared by their bits. -/
def samePrimitive : Value → Value → Bool
  | .empty, .empty => true
  | .text a, .text b => a == b
  | .integer a, .integer b => a == b
  | .float a, .float b => a == b
  | .bool a, .bool b => a == b
  | _, _ => false

/-- The value inside the given number of lists of one item each. -/
def nest (value : Value) : Nat → Value
  | 0 => value
  | depth + 1 => .items [nest value depth]

mutual

/-- A description of a value.  Of a template and of a deferred value it says only that they are
one. -/
def describe : Value → String
  | .empty => "Empty"
  | .text data => "Text(" ++ Text.quoted data ++ ")"
  | .integer number => "Integer(" ++ toString number.toInt ++ ")"
  | .float number => "Float(" ++ number.describe ++ ")"
  | .bool flag => "Bool(" ++ (if flag then "true" else "false") ++ ")"
  | .template _ _ => "Template(..)"
  | .items values => "Items([" ++ ", ".intercalate (describeAll values) ++ "])"
  | .deferred _ => "Thunk(Thunk(..))"

def describeAll : List Value → List String
  | [] => []
  | value :: rest => value.describe :: describeAll rest

end

end Value

/-! ## Values from other types -/

/-- Types whose members can be supplied as dynamic values. -/
class ToValue (α : Type) where
  toValue : α → Value

export ToValue (toValue)

instance : ToValue Value :=
  ⟨id⟩

instance : ToValue Unit :=
  ⟨fun _ => .empty⟩

instance : ToValue Bool :=
  ⟨.bool⟩

instance : ToValue String :=
  ⟨.text⟩

instance : ToValue Char :=
  ⟨fun c => .text (String.singleton c)⟩

/-- An integer beyond 64 bits becomes the nearest number in floating point. -/
instance : ToValue Int where
  toValue number :=
    if Int64.minValue.toInt ≤ number ∧ number ≤ Int64.maxValue.toInt then
      .integer (Int64.ofInt number)
    else .float (Binary64.ofInt number)

instance : ToValue Nat :=
  ⟨fun number => toValue (number : Int)⟩

instance : ToValue Binary64 :=
  ⟨.float⟩

instance : ToValue Deferred :=
  ⟨.deferred⟩

instance : ToValue TemplateResult :=
  ⟨fun result => .template result.template result.values⟩

/-- Nothing becomes the empty value. -/
instance {α : Type} [ToValue α] : ToValue (Option α) :=
  ⟨fun value => value.elim .empty toValue⟩

instance {α : Type} [ToValue α] : ToValue (List α) :=
  ⟨fun values => .items (values.map toValue)⟩

end LiveMarkup
