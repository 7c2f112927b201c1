import LiveMarkup.Number.Binary64

/-! # The shortest decimal text of a number

Among the decimals that read back as a given `Binary64` there are some with the fewest digits, and
of those the nearest one is written (of two equally near ones the larger).  `Decimal.ofBinary` finds
it in exact natural arithmetic: it walks from a coarse grid of powers of ten to finer ones, and on
each grid tries the two neighbours of the number.

Two layouts use these digits.  `Binary64.text` is always positional and writes an integral number
without a point; `Binary64.describe` marks every number as a fractional one and writes very large and
very small numbers with an exponent. -/

namespace LiveMarkup

/-- The decimal `digits * 10 ^ exponent`. -/
structure Decimal where
  digits : Nat
  exponent : Int
  deriving DecidableEq, Repr

namespace Decimal

/-- The numbers that round to a given one, as multiples of a common unit `2 ^ exponent`: from `low`
to `high` around `value`, with both ends if `closed`. -/
structure Range where
  low : Nat
  value : Nat
  high : Nat
  exponent : Int
  closed : Bool

/-- Half the gap to either neighbour belongs to a number; the gap below a power of two is only half
as wide as the one above, except at the bottom of the format. -/
def Range.around (significand : Nat) (exponent : Int) : Range :=
  let narrow := significand == 2 ^ 52 && exponent != -1074
  { low := 4 * significand - (if narrow then 1 else 2)
    value := 4 * significand
    high := 4 * significand + 2
    exponent := exponent - 2
    closed := significand % 2 == 0 }

/-- How `n` units of `2 ^ unit` compare with a decimal, exactly. -/
def compareUnits (n : Nat) (unit : Int) (d : Decimal) : Ordering :=
  compare (n * Nat.pow 2 unit.toNat * Nat.pow 10 (-d.exponent).toNat)
    (d.digits * Nat.pow 10 d.exponent.toNat * Nat.pow 2 (-unit).toNat)

/-- Whether a decimal is among the numbers that round to the given one. -/
def Range.covers (r : Range) (d : Decimal) : Bool :=
  match compareUnits r.low r.exponent d, compareUnits r.high r.exponent d with
  | .lt, .gt => true
  | .lt, .eq | .eq, .gt => r.closed
  | _, _ => false

/-- The largest multiple of `10 ^ exponent` that is at most the value of the range. -/
def Range.floor (r : Range) (exponent : Int) : Decimal :=
  { digits := r.value * Nat.pow 2 r.exponent.toNat * Nat.pow 10 (-exponent).toNat /
      (Nat.pow 10 exponent.toNat * Nat.pow 2 (-r.exponent).toNat)
    exponent }

/-- The nearer of the neighbours `d` and `d + 1` on the grid of `d`; of two equally near ones the
larger. -/
def Range.nearer (r : Range) (d : Decimal) : Decimal :=
  let next := { d with digits := d.digits + 1 }
  let middle := { d with digits := 2 * d.digits + 1 }
  if compareUnits (2 * r.value) r.exponent middle = .lt then d else next

/-- Searches the grids from `10 ^ exponent` downwards for the first that has a decimal in the
range.  The number itself lies on a fine enough grid, which is within `steps`. -/
def Range.search (r : Range) : Nat → Int → Decimal
  | 0, exponent => r.floor exponent
  | steps + 1, exponent =>
    let below := r.floor exponent
    let above := { below with digits := below.digits + 1 }
    match r.covers below, r.covers above with
    | true, true => r.nearer below
    | true, false => below
    | false, true => above
    | false, false => r.search steps (exponent - 1)

/-- The decimal with the fewest digits that reads back as `significand * 2 ^ exponent`, the nearest
such one.  The search starts on a grid too coarse for the number. -/
def ofBinary (significand : Nat) (exponent : Int) : Decimal :=
  let start := (significand.log2 + exponent + 1) * 30103 / 100000 + 2
  (Range.around significand exponent).search (start - min exponent 0 + 1).toNat start

/-- The decimal digits of the digits' number. -/
def numeral (d : Decimal) : List Char :=
  Nat.toDigits 10 d.digits

/-- The exponent of the leading digit. -/
def leading (d : Decimal) : Int :=
  d.numeral.length + d.exponent - 1

/-- The text without an exponent. -/
def positional (d : Decimal) : List Char :=
  let numeral := d.numeral
  let places := (-d.exponent).toNat
  if 0 ≤ d.exponent then numeral ++ List.replicate d.exponent.toNat '0'
  else if places < numeral.length then
    numeral.take (numeral.length - places) ++ '.' :: numeral.drop (numeral.length - places)
  else '0' :: '.' :: List.replicate (places - numeral.length) '0' ++ numeral

/-- The text with one digit before the point and an exponent. -/
def scientific (d : Decimal) : List Char :=
  let exponent := (toString d.leading).toList
  match d.numeral with
  | [] => []
  | [digit] => digit :: 'e' :: exponent
  | digit :: digits => digit :: '.' :: digits ++ 'e' :: exponent

end Decimal

namespace Binary64

/-- The text of a number, given how a finite non-zero magnitude is written and how zero is. -/
def render (zero : List Char) (write : Decimal → List Char) (x : Binary64) : String :=
  let signed := fun text => String.ofList (if x.isNegative then '-' :: text else text)
  match x.magnitude with
  | .notANumber => "NaN"
  | .infinite => signed ['i', 'n', 'f']
  | .zero => signed zero
  | .finite significand exponent => signed (write (.ofBinary significand exponent))

/-- The text a number renders as: positional, and without a point if the number is integral. -/
def text (x : Binary64) : String :=
  x.render ['0'] Decimal.positional

/-- The text of a number in a description of a value: with a point in every number, and with an
exponent below `10 ^ (-4)` and from `10 ^ 16` on. -/
def describe (x : Binary64) : String :=
  x.render ['0', '.', '0'] fun d =>
    if d.leading < -4 ∨ 16 ≤ d.leading then d.scientific
    else if 0 ≤ d.exponent then d.positional ++ ['.', '0']
    else d.positional

end Binary64

end LiveMarkup
