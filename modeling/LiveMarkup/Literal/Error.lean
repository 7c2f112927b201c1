import LiveMarkup.Literal.Position

/-! # Why a literal cannot be used

The causes that keep a literal from becoming a template, and their wording.  Three causes concern a
parser that does not leave the values where their author put them. -/

namespace LiveMarkup

/-- Why a literal has no template, or why values cannot be paired with it. -/
inductive LiteralError where
  /-- There is no segment at all. -/
  | noSegments
  /-- A segment contains the start of a placeholder. -/
  | reserved (segment : Nat)
  /-- A value stands where none can stand. -/
  | misplaced (value : Nat) (place : Misplacement)
  /-- The parsed markup has value `found` where it should have value `expected`. -/
  | outOfOrder (expected found : Nat)
  /-- The parsed markup has the value in another sort of place than the literal. -/
  | moved (value : Nat)
  /-- The parsed markup repeats values: it has at least `found` of the `expected` ones. -/
  | surplus (expected found : Nat)
  /-- The parsed markup ends after `found` of the `expected` values. -/
  | missing (expected found : Nat)
  /-- The number of given values does not fit the number of segments. -/
  | valueCount (segments values : Nat)
  /-- The parser gave up. -/
  | unparsed (message : String)
  deriving DecidableEq, Repr

namespace LiteralError

def message : LiteralError → String
  | noSegments => "a template literal needs at least one segment"
  | reserved segment => s!"segment {segment} contains the reserved part marker"
  | misplaced value place => s!"dynamic value {value} is {place.describe}"
  | outOfOrder value _ | moved value =>
    s!"dynamic value {value} was not found where the source text puts it"
  | surplus expected found | missing expected found =>
    s!"expected {expected} parts but the parsed markup yields {found}"
  | valueCount segments values =>
    s!"a literal with {segments} segments takes {segments - 1} values, but {values} were given"
  | unparsed message => "markup parser failed: " ++ message

/-- What is worth a warning besides the error itself. -/
def warning? : LiteralError → Option String
  | outOfOrder expected found =>
    some s!"The parsed markup has value {found} where the literal has value {expected}."
  | missing _ found => some s!"The parsed markup dropped value {found} of the literal."
  | _ => none

end LiteralError

end LiveMarkup
