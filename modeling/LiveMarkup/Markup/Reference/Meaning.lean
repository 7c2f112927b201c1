import LiveMarkup.Markup.Reference.CapitalNames
import LiveMarkup.Markup.Reference.SmallNames

/-! # Named and numbered characters

What the text of a character reference stands for: the character of a name, and the character of a
number. -/

namespace LiveMarkup.Markup.Reference

/-! ## Names -/

/-- The names that start with the given letter, with the code points they stand for. -/
def namesFrom : Char → List (String × List Nat)
  | 'A' => capitalA
  | 'B' => capitalB
  | 'C' => capitalC
  | 'D' => capitalD
  | 'E' => capitalE
  | 'F' => capitalF
  | 'G' => capitalG
  | 'H' => capitalH
  | 'I' => capitalI
  | 'J' => capitalJ
  | 'K' => capitalK
  | 'L' => capitalL
  | 'M' => capitalM
  | 'N' => capitalN
  | 'O' => capitalO
  | 'P' => capitalP
  | 'Q' => capitalQ
  | 'R' => capitalR
  | 'S' => capitalS
  | 'T' => capitalT
  | 'U' => capitalU
  | 'V' => capitalV
  | 'W' => capitalW
  | 'X' => capitalX
  | 'Y' => capitalY
  | 'Z' => capitalZ
  | 'a' => smallA
  | 'b' => smallB
  | 'c' => smallC
  | 'd' => smallD
  | 'e' => smallE
  | 'f' => smallF
  | 'g' => smallG
  | 'h' => smallH
  | 'i' => smallI
  | 'j' => smallJ
  | 'k' => smallK
  | 'l' => smallL
  | 'm' => smallM
  | 'n' => smallN
  | 'o' => smallO
  | 'p' => smallP
  | 'q' => smallQ
  | 'r' => smallR
  | 's' => smallS
  | 't' => smallT
  | 'u' => smallU
  | 'v' => smallV
  | 'w' => smallW
  | 'x' => smallX
  | 'y' => smallY
  | 'z' => smallZ
  | _ => []

/-- Whether a text starts a name or is one. -/
def startsName (text : List Char) : Bool :=
  match text with
  | [] => true
  | c :: _ => (namesFrom c).any fun entry => text.isPrefixOf entry.1.toList

/-- The characters that a name stands for. -/
def named? (name : List Char) : Option (List Char) :=
  match name with
  | [] => none
  | c :: _ =>
    ((namesFrom c).find? fun entry => entry.1.toList == name).map fun entry =>
      entry.2.map Char.ofNat

/-- A name at the front of a text, the longest one of at most `size` characters: what it stands for,
the name, and the text behind it. -/
def longest? (text : List Char) : Nat → Option (List Char × List Char × List Char)
  | 0 => none
  | size + 1 =>
    match named? (text.take (size + 1)) with
    | some characters => some (characters, text.take (size + 1), text.drop (size + 1))
    | none => longest? text size

/-! ## Numbers -/

/-- The characters meant by the numbers of a range of control characters. -/
def meantByControl : Nat → Nat
  | 0x80 => 0x20AC
  | 0x82 => 0x201A
  | 0x83 => 0x0192
  | 0x84 => 0x201E
  | 0x85 => 0x2026
  | 0x86 => 0x2020
  | 0x87 => 0x2021
  | 0x88 => 0x02C6
  | 0x89 => 0x2030
  | 0x8A => 0x0160
  | 0x8B => 0x2039
  | 0x8C => 0x0152
  | 0x8E => 0x017D
  | 0x91 => 0x2018
  | 0x92 => 0x2019
  | 0x93 => 0x201C
  | 0x94 => 0x201D
  | 0x95 => 0x2022
  | 0x96 => 0x2013
  | 0x97 => 0x2014
  | 0x98 => 0x02DC
  | 0x99 => 0x2122
  | 0x9A => 0x0161
  | 0x9B => 0x203A
  | 0x9C => 0x0153
  | 0x9E => 0x017E
  | 0x9F => 0x0178
  | number => number

/-- The character shown in place of one that cannot be. -/
def replacement : Char :=
  '\uFFFD'

/-- The character of a number.  Zero, surrogates and numbers beyond the last code point have
none. -/
def numbered (number : Nat) : Char :=
  if number = 0 ∨ ¬ number.isValidChar then replacement
  else Char.ofNat (meantByControl number)

end LiveMarkup.Markup.Reference
