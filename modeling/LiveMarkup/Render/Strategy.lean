import LiveMarkup.Render.Resolve

/-! # Strategies for attributes

A strategy decides how the value of an attribute part reaches its element.  It is chosen for each
part when a template is instantiated: the first one registered that claims the part, or else the one
that sets the attribute to the text of the value. -/

namespace LiveMarkup

/-- A way to apply values to elements.  A commit may be refused with an error. -/
structure Strategy (σ : Type) where
  claims : AttributePart → Bool
  commit : NodeId → AttributePart → Value → SceneM σ (Except ResolutionError Unit)

namespace Strategy

variable {σ : Type}

/-- Sets the attribute to the text of the value, and refuses a value that has none. -/
def setAttribute : Strategy σ where
  claims _ := true
  commit element part value :=
    match value.attributeText with
    | .error error => pure (.error error)
    | .ok text => do
      Stage.note (.attributeSet part.name text)
      Stage.setAttribute element part.name text
      pure (.ok ())

/-- The strategy for a part among those registered. -/
def choose (strategies : List (Strategy σ)) (part : AttributePart) : Strategy σ :=
  (strategies.find? (·.claims part)).getD setAttribute

end Strategy

/-- Whether a part is written as a property of its element, with a point before the name. -/
def AttributePart.isProperty (part : AttributePart) : Bool :=
  part.rawName.toList.head? == some '.'

end LiveMarkup
