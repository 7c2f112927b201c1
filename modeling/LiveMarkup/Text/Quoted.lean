import LiveMarkup.Text.Hidden

/-! # Quoted texts

The form in which messages and descriptions show a text: between double quotes, with a backslash
before what could be mistaken for the end of the text or for something else. -/

namespace LiveMarkup.Text

/-- How one character is written between double quotes.  An apostrophe stays as it is. -/
def quotedChar (c : Char) : List Char :=
  match c with
  | '"' => ['\\', '"']
  | '\\' => ['\\', '\\']
  | '\n' => ['\\', 'n']
  | '\r' => ['\\', 'r']
  | '\t' => ['\\', 't']
  | '\x00' => ['\\', '0']
  | c =>
    if isHidden c then '\\' :: 'u' :: '{' :: Nat.toDigits 16 c.toNat ++ ['}']
    else [c]

/-- A text between double quotes. -/
def quoted (text : String) : String :=
  String.ofList ('"' :: text.toList.flatMap quotedChar ++ ['"'])

end LiveMarkup.Text
