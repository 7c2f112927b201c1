import LiveMarkup.Markup.Reference.Meaning

/-! # Character references

A character reference is an ampersand and what follows it, up to a semicolon if there is one.  It is
read one character at a time; what turns out to be no reference stays the text it is.

A name is read as far as it can go on to some name, and then stands for the longest name at its
front.  Inside an attribute value, a name without a semicolon counts only if no letter, digit or
equals sign follows it. -/

namespace LiveMarkup.Markup

/-- How far a character reference is read.  Names are collected with the last character first. -/
inductive Reference where
  /-- Behind the ampersand. -/
  | start
  | named (name : List Char)
  /-- Behind the number sign. -/
  | numeric
  /-- Behind the letter that announces a hexadecimal number, which is kept as written. -/
  | hexStart (letter : Char)
  | decimal (number : Nat)
  | hexadecimal (number : Nat)
  deriving DecidableEq, Repr

namespace Reference

/-- What one more character does to a reference: it goes on, or it stands for a text.  A reference
that is over may leave the character to be read again. -/
inductive Outcome where
  | more (reference : Reference)
  | done (text : List Char) (consumed : Bool)
  deriving DecidableEq, Repr

/-- The value of a hexadecimal digit. -/
def hexDigit? (c : Char) : Option Nat :=
  if c.isDigit then some (c.toNat - '0'.toNat)
  else if 'a' ≤ c ∧ c ≤ 'f' then some (c.toNat - 'a'.toNat + 10)
  else if 'A' ≤ c ∧ c ≤ 'F' then some (c.toNat - 'A'.toNat + 10)
  else none

/-- Whether a name without a semicolon, followed by this character, is plain text in an attribute
value. -/
def staysText (next : Option Char) : Bool :=
  match next with
  | some c => c == '=' || c.isAlphanum
  | none => false

/-- What an ampersand with the given name behind it stands for, followed by `next`. -/
def resolve (inValue : Bool) (name : List Char) (next : Option Char) : List Char :=
  match longest? name name.length with
  | none => '&' :: name
  | some (characters, found, rest) =>
    if inValue && found.getLast? != some ';' && staysText (rest.head? <|> next) then '&' :: name
    else characters ++ rest

/-- One more character. -/
def step (inValue : Bool) (reference : Reference) (c : Char) : Outcome :=
  match reference with
  | .start =>
    if c = '#' then .more .numeric
    else if startsName [c] then .more (.named [c])
    else .done ['&'] false
  | .named name =>
    if startsName (c :: name).reverse then
      if c = ';' then .done (resolve inValue (c :: name).reverse none) true
      else .more (.named (c :: name))
    else .done (resolve inValue name.reverse (some c)) false
  | .numeric =>
    if c = 'x' ∨ c = 'X' then .more (.hexStart c)
    else if c.isDigit then .more (.decimal (c.toNat - '0'.toNat))
    else .done ['&', '#'] false
  | .hexStart letter =>
    match hexDigit? c with
    | some digit => .more (.hexadecimal digit)
    | none => .done ['&', '#', letter] false
  | .decimal number =>
    if c.isDigit then .more (.decimal (10 * number + (c.toNat - '0'.toNat)))
    else .done [numbered number] (c = ';')
  | .hexadecimal number =>
    match hexDigit? c with
    | some digit => .more (.hexadecimal (16 * number + digit))
    | none => .done [numbered number] (c = ';')

/-- What a reference stands for when the text ends. -/
def finish (inValue : Bool) : Reference → List Char
  | .start => ['&']
  | .named name => resolve inValue name.reverse none
  | .numeric => ['&', '#']
  | .hexStart letter => ['&', '#', letter]
  | .decimal number | .hexadecimal number => [numbered number]

end Reference

end LiveMarkup.Markup
