/-! # Double-precision numbers

A `Binary64` is given by its 64 bits, so two of them are equal exactly when their bits are: a zero
differs from its negative, and a not-a-number equals itself.  This file holds the reading of the
bits as a significand and an exponent, and the two conversions into the format: from an integer,
rounded to the nearest number (a tie goes to the even significand), and from a single-precision
number, which is exact. -/

namespace LiveMarkup

-- Powers of natural numbers are those of the core library, whatever else is imported.
attribute [default_instance 20000] instPowNat

/-- A double-precision floating-point number, as its bits. -/
structure Binary64 where
  bits : UInt64
  deriving DecidableEq, Inhabited, Repr

namespace Binary64

/-- What the bits below the sign stand for. -/
inductive Magnitude where
  | notANumber
  | infinite
  | zero
  /-- The value `significand * 2 ^ exponent`, the significand not zero. -/
  | finite (significand : Nat) (exponent : Int)
  deriving DecidableEq, Repr

def isNegative (x : Binary64) : Bool :=
  2 ^ 63 ≤ x.bits.toNat

/-- The eleven bits of the biased exponent. -/
def exponentField (x : Binary64) : Nat :=
  x.bits.toNat / 2 ^ 52 % 2 ^ 11

/-- The 52 bits of the fraction. -/
def fractionField (x : Binary64) : Nat :=
  x.bits.toNat % 2 ^ 52

def magnitude (x : Binary64) : Magnitude :=
  match x.exponentField, x.fractionField with
  | 0, 0 => .zero
  | 0, fraction => .finite fraction (-1074)
  | 2047, 0 => .infinite
  | 2047, _ => .notANumber
  | field, fraction => .finite (2 ^ 52 + fraction) (field - 1075)

/-- The number with the given sign whose other bits are `rest`. -/
def ofFields (negative : Bool) (rest : Nat) : Binary64 :=
  ⟨UInt64.ofNat (if negative then 2 ^ 63 + rest else rest)⟩

/-! ## Conversions into the format -/

/-- `n / 2 ^ shift`, rounded to the nearest integer; a tie goes to the even one. -/
def halveEven (n shift : Nat) : Nat :=
  let divisor := Nat.pow 2 shift
  let quotient := n / divisor
  match compare (2 * (n % divisor)) divisor with
  | .lt => quotient
  | .gt => quotient + 1
  | .eq => quotient + quotient % 2

/-- The bits of a natural number below the sign.  A significand that rounds up to `2 ^ 53` carries
into the exponent, as it should; a number too large becomes infinite. -/
def fieldsOfNat (n : Nat) : Nat :=
  let scale := n.log2
  if n = 0 then 0
  else if scale ≤ 52 then (scale + 1023) * 2 ^ 52 + (n * Nat.pow 2 (52 - scale) - 2 ^ 52)
  else if scale ≤ 1023 then (scale + 1023) * 2 ^ 52 + (halveEven n (scale - 52) - 2 ^ 52)
  else 2047 * 2 ^ 52

/-- The number nearest to an integer. -/
def ofInt (n : Int) : Binary64 :=
  ofFields (n < 0) (fieldsOfNat n.natAbs)

/-- The number with the value of the given single-precision bits.  A not-a-number keeps its payload
and becomes quiet. -/
def ofSingle (single : UInt32) : Binary64 :=
  let negative := decide (2 ^ 31 ≤ single.toNat)
  let fraction := single.toNat % 2 ^ 23
  let rest :=
    match single.toNat / 2 ^ 23 % 2 ^ 8 with
    | 0 =>
      if fraction = 0 then 0
      else (fraction.log2 + 874) * 2 ^ 52 + (fraction * Nat.pow 2 (52 - fraction.log2) - 2 ^ 52)
    | 255 =>
      if fraction = 0 then 2047 * 2 ^ 52
      else 2047 * 2 ^ 52 + 2 ^ 51 + fraction % 2 ^ 22 * 2 ^ 29
    | field => (field + 896) * 2 ^ 52 + fraction * 2 ^ 29
  ofFields negative rest

end Binary64

end LiveMarkup
