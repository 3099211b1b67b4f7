import OpcodeTable.Text.Printable

/-!
# Quoted text

A text in double quotes as it is shown inside an error message: every character that is not
printable, and the quote and the backslash themselves, stand as an escape, so that the message
shows what the text holds character by character.
-/

set_option autoImplicit false

namespace OpcodeTable

/-- The form of one character between the quotes. -/
def quotedChar (c : Char) : List Char :=
  if c = '"' then ['\\', '"']
  else if c = '\\' then ['\\', '\\']
  else if c = '\t' then ['\\', 't']
  else if c = '\n' then ['\\', 'n']
  else if c = '\r' then ['\\', 'r']
  else if c.toNat = 0 then ['\\', '0']
  else if isPrintable c then [c]
  else ['\\', 'u', '{'] ++ Nat.toDigits 16 c.toNat ++ ['}']

/-- The text in double quotes. -/
def quotedText (text : String) : String :=
  String.ofList ('"' :: text.toList.flatMap quotedChar ++ ['"'])

end OpcodeTable
