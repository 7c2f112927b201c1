import LiveMarkup.Render.Error
import LiveMarkup.Value.Value

/-! # Values as attribute values

Every resolved value has a text, except a template and what contains one. -/

namespace LiveMarkup.Value

mutual

/-- The text that a value has in an attribute.  The texts of items are put together without anything
between them, and a deferred value, which resolution would have replaced, has none. -/
def attributeText : Value → Except ResolutionError String
  | .template _ _ => .error .templateInAttribute
  | .items values => itemsText values
  | value => .ok (value.primitiveText.getD "")

def itemsText : List Value → Except ResolutionError String
  | [] => .ok ""
  | value :: rest => do
    let first ← value.attributeText
    let more ← itemsText rest
    pure (first ++ more)

end

end LiveMarkup.Value
