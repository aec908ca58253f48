import IteratorLowering.Text.Hidden

/-!
# Quoted texts

`quote` writes a text between double quotes, so that it stays on one line and every character
can be told apart. Quotes, backslashes and the usual control characters get a backslash escape;
every other character that would not show on its own is written as its code point in
hexadecimal.
-/

set_option autoImplicit false
set_option relaxedAutoImplicit false

namespace IteratorLowering.Text

/-- The lower-case hexadecimal digits of a number, without leading zeros. -/
def hexadecimal (number : Nat) : String := String.ofList (Nat.toDigits 16 number)

/-- The written form of a character inside a quoted text. -/
def escape (character : Char) : String :=
  if character = '\x00' then "\\0"
  else if character = '\t' then "\\t"
  else if character = '\r' then "\\r"
  else if character = '\n' then "\\n"
  else if character = '\\' then "\\\\"
  else if character = '"' then "\\\""
  else if isHidden character then "\\u\x7b" ++ hexadecimal character.toNat ++ "\x7d"
  else character.toString

/-- A text between double quotes, with escapes. -/
def quote (text : String) : String :=
  "\"" ++ text.foldl (fun written character => written ++ escape character) "" ++ "\""

end IteratorLowering.Text
