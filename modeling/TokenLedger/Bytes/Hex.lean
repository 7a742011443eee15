import TokenLedger.Bytes.Utf8
import TokenLedger.Text.Hexadecimal
import TokenLedger.Text.Quoted

/-!
Hexadecimal text. Writing uses lower-case digits; reading takes either case and works on the bytes
of the text, so that a character of two bytes counts as two digits that are wrong.
-/

namespace TokenLedger.Hex

/-- Two digits for every byte. -/
def encodeChars (bytes : Bytes) : List Char :=
  bytes.flatMap fun b => [Text.hexDigit (b.toNat / 16), Text.hexDigit (b.toNat % 16)]

/-- The hexadecimal text of bytes. -/
def encode (bytes : Bytes) : String := String.ofList (encodeChars bytes)

/-- Why a text is not hexadecimal. -/
inductive Error where
  | oddLength
  /-- The byte at a position, shown as the character of that number, is no digit. -/
  | invalidCharacter (c : Char) (position : Nat)
deriving DecidableEq, Repr

/-- The wording of an error. -/
def Error.message : Error → String
  | .oddLength => "Odd number of digits"
  | .invalidCharacter c position =>
    let shown := Text.quotedChar c
    s!"Invalid character {shown} at position {position}"

/-- Reads the digit at a position. -/
def readDigit (position : Nat) (b : UInt8) : Except Error Nat :=
  let c := Char.ofNat b.toNat
  match Text.hexDigitValue? c with
  | some n => .ok n
  | none => .error (.invalidCharacter c position)

/-- Reads digits two by two. -/
def decodePairs (position : Nat) : Bytes → Except Error Bytes
  | high :: low :: rest => do
    let h ← readDigit position high
    let l ← readDigit (position + 1) low
    let bytes ← decodePairs (position + 2) rest
    return UInt8.ofNat (h * 16 + l) :: bytes
  | _ => .ok []

/-- The bytes that a hexadecimal text stands for; its length is looked at first. -/
def decodeBytes (text : Bytes) : Except Error Bytes :=
  if text.length % 2 = 1 then .error .oddLength else decodePairs 0 text

/-- The bytes that a hexadecimal text stands for. -/
def decode (text : String) : Except Error Bytes := decodeBytes (Utf8.encode text)

end TokenLedger.Hex
