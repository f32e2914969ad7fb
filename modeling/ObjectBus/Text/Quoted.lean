import ObjectBus.Text.Unprintable
import ObjectBus.Text.ExtendingMark

/-!
# Quoted text

The form in which a text is shown to people: between double quotes, with quotes, backslashes,
controls and everything without a visible form of its own written as escapes.
-/

namespace ObjectBus.Text

/-- The escape for any code point: its number in lower case hexadecimal, between braces. -/
def codePointEscape (c : Char) : List Char :=
  ['\\', 'u', '{'] ++ Nat.toDigits 16 c.toNat ++ ['}']

/-- How one character of a quoted text is written. -/
def quotedChar (c : Char) : List Char :=
  if c = '\x00' then ['\\', '0']
  else if c = '\t' then ['\\', 't']
  else if c = '\r' then ['\\', 'r']
  else if c = '\n' then ['\\', 'n']
  else if c = '\\' then ['\\', '\\']
  else if c = '"' then ['\\', '"']
  else if 0x20 ≤ c.toNat && c.toNat < 0x7F then [c]
  else if isExtendingMark c || isUnprintable c then codePointEscape c
  else [c]

/-- The text between double quotes, with escapes. -/
def quoted (s : String) : String :=
  String.ofList ('"' :: s.toList.flatMap quotedChar ++ ['"'])

end ObjectBus.Text
