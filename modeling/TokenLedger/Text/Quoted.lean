import TokenLedger.Text.Hexadecimal
import TokenLedger.Text.Printable

/-!
Text in quotes, as error messages show it: a character that would be mistaken for something else
is written with a backslash, and one without a shape of its own by its number.
-/

namespace TokenLedger.Text

/-- A character by its number. -/
def byNumber (c : Char) : List Char :=
  ['\\', 'u', '{'] ++ hexDigits c.toNat ++ ['}']

/-- One character inside quotes of the kind `quote`. -/
def quotedPart (quote c : Char) : List Char :=
  if c.toNat = 0 then ['\\', '0']
  else if c = '\t' then ['\\', 't']
  else if c = '\r' then ['\\', 'r']
  else if c = '\n' then ['\\', 'n']
  else if c = '\\' then ['\\', '\\']
  else if c = quote then ['\\', c]
  else if IsJoining c then byNumber c
  else if IsPrintable c then [c]
  else byNumber c

/-- A text between double quotes. -/
def quoted (s : String) : String :=
  String.ofList (['"'] ++ s.toList.flatMap (quotedPart '"') ++ ['"'])

/-- A character between single quotes. -/
def quotedChar (c : Char) : String :=
  String.ofList (['\''] ++ quotedPart '\'' c ++ ['\''])

end TokenLedger.Text
