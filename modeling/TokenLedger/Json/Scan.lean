import TokenLedger.Json.Error
import TokenLedger.Text.Decimal
import TokenLedger.Text.Hexadecimal

/-!
The parts of JSON texts: blanks, words, numbers, quoted texts, and the frames of lists and objects.

A text is read as a stream, so the first fault met is the one that is reported. What is skipped over
is only looked at for its shape: a number may be of any size, and an escaped character may stand
for half of one.
-/

namespace TokenLedger.Json

/-- Whether a character may stand between the parts of a text. -/
def IsBlank (c : Char) : Bool := c == ' ' || c == '\n' || c == '\t' || c == '\r'

/-- A text from its first part on. -/
def skipBlank (cs : List Char) : List Char := cs.dropWhile IsBlank

/-- Reads a word that has begun. -/
def word : List Char → List Char → Except Error (List Char)
  | [], cs => .ok cs
  | _ :: _, [] => .error .unfinished
  | w :: ws, c :: cs => if c = w then word ws cs else .error .malformed

/-! ## Numbers -/

/-- A number as it is written. -/
structure Numeral where
  negative : Bool
  whole : List Char
  /-- The digits after the point. -/
  fraction : List Char := []
  exponent? : Option Int := none

/-- One or more digits; `ended` is the fault if the text ends before them. -/
def someDigits (ended : Error) (cs : List Char) : Except Error (List Char × List Char) :=
  let ds := cs.takeWhile fun c => decide (Decimal.IsDigit c)
  if ds ≠ [] then .ok (ds, cs.dropWhile fun c => decide (Decimal.IsDigit c))
  else if cs = [] then .error ended
  else .error .malformed

/-- The digits before a point: a zero stands alone. -/
def wholeDigits (ended : Error) (cs : List Char) : Except Error (List Char × List Char) := do
  let (ds, rest) ← someDigits ended cs
  match ds with
  | '0' :: _ :: _ => .error .malformed
  | _ => return (ds, rest)

/-- The digits after a point, if there is one. -/
def fractionDigits (ended : Error) : List Char → Except Error (List Char × List Char)
  | '.' :: cs => someDigits ended cs
  | cs => .ok ([], cs)

/-- The sign and the digits of an exponent. -/
def exponentValue (ended : Error) (cs : List Char) : Except Error (Int × List Char) :=
  let (negative, cs) : Bool × List Char :=
    match cs with
    | '-' :: cs => (true, cs)
    | '+' :: cs => (false, cs)
    | cs => (false, cs)
  do
    let (ds, rest) ← someDigits ended cs
    let n : Int := Decimal.value ds
    return (if negative then -n else n, rest)

/-- The exponent, if there is one. -/
def exponentPart (ended : Error) (cs : List Char) : Except Error (Option Int × List Char) :=
  match cs with
  | c :: rest =>
    if c = 'e' ∨ c = 'E' then do
      let (n, rest) ← exponentValue ended rest
      return (some n, rest)
    else .ok (none, cs)
  | [] => .ok (none, [])

/-- The parts of a number; `ended` is the fault if the text ends where a digit has to follow. -/
def numeral (ended : Error) (cs : List Char) : Except Error (Numeral × List Char) :=
  let (negative, cs) : Bool × List Char :=
    match cs with
    | '-' :: cs => (true, cs)
    | cs => (false, cs)
  do
    let (whole, cs) ← wholeDigits ended cs
    let (fraction, cs) ← fractionDigits ended cs
    let (exponent?, cs) ← exponentPart ended cs
    return ({ negative, whole, fraction, exponent? }, cs)

/-- Appends digits to a number for as long as a word holds it; the second part is what is left. -/
def appendDigits (n : Nat) : List Char → Nat × List Char
  | [] => (n, [])
  | c :: cs =>
    if 10 * n + Decimal.digitValue c < UInt64.size then
      appendDigits (10 * n + Decimal.digitValue c) cs
    else (n, c :: cs)

/-- A number rounded to fifty-three binary places, a tie to the even neighbour. -/
def toPlaces53 (n : Nat) : Nat :=
  let step := Nat.pow 2 (n.log2 - 52)
  let low := n / step
  let twice := 2 * (n % step)
  if twice < step ∨ (twice = step ∧ low % 2 = 0) then low * step else (low + 1) * step

namespace Numeral

/-- The leading digits that a word holds, and the power of ten that they are to be scaled by. -/
def scaled (n : Numeral) : Nat × Int :=
  let (w, leftOfPoint) := appendDigits 0 n.whole
  let (s, dropped) := appendDigits w n.fraction
  let shift : Int := leftOfPoint.length - (n.fraction.length - dropped.length)
  (s, shift + n.exponent?.getD 0)

/-- Whether no double-precision number is large enough. -/
def TooLarge (n : Numeral) : Prop :=
  let (s, e) := n.scaled
  s ≠ 0 ∧ (308 < e ∨
    (0 ≤ e ∧ Nat.pow 2 1024 ≤ toPlaces53 (toPlaces53 s * toPlaces53 (Nat.pow 10 e.toNat))))

instance (n : Numeral) : Decidable n.TooLarge := inferInstanceAs (Decidable (_ ∧ _))

/-- The integer that is written, if it has neither point nor exponent and a word holds it. A zero
with a sign is none. -/
def integer? (n : Numeral) : Option Int :=
  let v := Decimal.value n.whole
  if n.fraction ≠ [] ∨ n.exponent? ≠ none then none
  else if n.negative then (if 0 < v ∧ v ≤ 0x8000000000000000 then some (-(v : Int)) else none)
  else if v < UInt64.size then some v
  else none

end Numeral

/-- A number: an integer that a word holds, or any other. -/
inductive Number where
  | integer (n : Int)
  | fractional
deriving DecidableEq, Repr

/-- Reads a number. -/
def number : Reader Number := fun cs => do
  let (n, rest) ← numeral .unfinished cs
  match n.integer? with
  | some i => return (.integer i, rest)
  | none => if n.TooLarge then .error .malformed else return (.fractional, rest)

/-! ## Quoted texts -/

/-- Four digits in base sixteen. Four bytes have to be left, whatever they hold. -/
def fourHexDigits (cs : List Char) : Except Error (Nat × List Char) :=
  if (Utf8.encodeChars (cs.take 4)).length < 4 then .error .unfinished
  else
    match cs with
    | a :: b :: c :: d :: rest =>
      match Text.hexDigitValue? a, Text.hexDigitValue? b, Text.hexDigitValue? c,
        Text.hexDigitValue? d with
      | some a, some b, some c, some d => .ok (((a * 16 + b) * 16 + c) * 16 + d, rest)
      | _, _, _, _ => .error .malformed
    | _ => .error .malformed

/-- Whether a number is the first half of a character beyond the first plane. -/
def IsHighHalf (n : Nat) : Prop := 0xD800 ≤ n ∧ n ≤ 0xDBFF

instance (n : Nat) : Decidable (IsHighHalf n) := inferInstanceAs (Decidable (_ ∧ _))

/-- Whether a number is the second half of a character beyond the first plane. -/
def IsLowHalf (n : Nat) : Prop := 0xDC00 ≤ n ∧ n ≤ 0xDFFF

instance (n : Nat) : Decidable (IsLowHalf n) := inferInstanceAs (Decidable (_ ∧ _))

/-- The second half of a character whose first half was read. -/
def lowHalf (high : Nat) (cs : List Char) : Except Error (Char × List Char) :=
  match cs with
  | [] => .error .unfinished
  | ['\\'] => .error .unfinished
  | '\\' :: 'u' :: rest => do
    let (low, rest) ← fourHexDigits rest
    if IsLowHalf low then
      return (Char.ofNat (0x10000 + (high - 0xD800) * 1024 + (low - 0xDC00)), rest)
    else .error .malformed
  | _ => .error .malformed

/-- A character that is written by its number. Halves have to come in pairs, unless `lenient`. -/
def numberedChar (lenient : Bool) (cs : List Char) : Except Error (Char × List Char) := do
  let (n, rest) ← fourHexDigits cs
  if lenient then return ('?', rest)
  else if IsLowHalf n then .error .malformed
  else if IsHighHalf n then lowHalf n rest
  else return (Char.ofNat n, rest)

/-- A character that is written with a backslash. -/
def escapedChar (lenient : Bool) : List Char → Except Error (Char × List Char)
  | [] => .error .unfinished
  | c :: rest =>
    if c = '"' ∨ c = '\\' ∨ c = '/' then .ok (c, rest)
    else if c = 'b' then .ok ('\x08', rest)
    else if c = 'f' then .ok ('\x0c', rest)
    else if c = 'n' then .ok ('\n', rest)
    else if c = 'r' then .ok ('\r', rest)
    else if c = 't' then .ok ('\t', rest)
    else if c = 'u' then numberedChar lenient rest
    else .error .malformed

/-- The characters of a quoted text up to its closing quote, of which there are at most `fuel`. -/
def quotedChars (lenient : Bool) : (fuel : Nat) → Reader (List Char)
  | _, [] => .error .unfinished
  | 0, _ => .error .malformed
  | fuel + 1, c :: cs =>
    if c = '"' then .ok ([], cs)
    else if c = '\\' then do
      let (e, cs) ← escapedChar lenient cs
      let (text, cs) ← quotedChars lenient fuel cs
      return (e :: text, cs)
    else if c.toNat < 0x20 then .error .malformed
    else do
      let (text, cs) ← quotedChars lenient fuel cs
      return (c :: text, cs)

/-- Reads a quoted text after its opening quote. -/
def quotedText (lenient : Bool) : Reader String := fun cs => do
  let (text, rest) ← quotedChars lenient cs.length cs
  return (String.ofList text, rest)

/-! ## Lists and objects -/

/-- Goes to the next item of a list, or finds its end. -/
def nextItem (first : Bool) (cs : List Char) : Except Error (Option (List Char)) :=
  match skipBlank cs with
  | [] => .error .unfinished
  | c :: rest =>
    if c = ']' then .ok none
    else if first then .ok (some (c :: rest))
    else if c = ',' then
      match skipBlank rest with
      | [] => .error .unfinished
      | c :: rest => if c = ']' then .error .malformed else .ok (some (c :: rest))
    else .error .malformed

/-- Reads a closing character. -/
def closing (closer : Char) (cs : List Char) : Except Error (List Char) :=
  match skipBlank cs with
  | [] => .error .unfinished
  | c :: rest => if c = closer then .ok rest else .error .malformed

/-- The items of a list up to and with its end; there are fewer than `fuel`. -/
def listItems {α : Type} (item : Reader α) : (fuel : Nat) → (first : Bool) → Reader (List α)
  | 0, _, _ => .error .malformed
  | fuel + 1, first, cs => do
    match ← nextItem first cs with
    | none =>
      let rest ← closing ']' cs
      return ([], rest)
    | some cs =>
      let (a, cs) ← item cs
      let (as, cs) ← listItems item fuel false cs
      return (a :: as, cs)

/-- Goes behind the opening quote of the next name in an object, or finds the end of the object. -/
def nextName (first : Bool) (cs : List Char) : Except Error (Option (List Char)) :=
  match skipBlank cs with
  | [] => .error .unfinished
  | c :: rest =>
    if c = '}' then .ok none
    else if first then if c = '"' then .ok (some rest) else .error .malformed
    else if c = ',' then
      match skipBlank rest with
      | [] => .error .unfinished
      | c :: rest => if c = '"' then .ok (some rest) else .error .malformed
    else .error .malformed

/-- The colon between a name and its value. -/
def colon (cs : List Char) : Except Error (List Char) := closing ':' cs

/-- Goes through the members of an object up to and with its end, each changing the state by what
`member` reads after its name; there are fewer than `fuel`. -/
def objectMembers {σ : Type} (lenient : Bool) (member : String → σ → Reader σ) :
    (fuel : Nat) → (first : Bool) → σ → Reader σ
  | 0, _, _, _ => .error .malformed
  | fuel + 1, first, s, cs => do
    match ← nextName first cs with
    | none =>
      let rest ← closing '}' cs
      return (s, rest)
    | some cs =>
      let (name, cs) ← quotedText lenient cs
      let (s, cs) ← member name s cs
      objectMembers lenient member fuel false s cs

/-- Goes over a value of any kind, nested at most `fuel` deep. -/
def skipValue : (fuel : Nat) → Reader Unit
  | 0, _ => .error .malformed
  | fuel + 1, cs =>
    match skipBlank cs with
    | [] => .error .unfinished
    | c :: rest =>
      if c = 'n' then do return ((), ← word ['u', 'l', 'l'] rest)
      else if c = 't' then do return ((), ← word ['r', 'u', 'e'] rest)
      else if c = 'f' then do return ((), ← word ['a', 'l', 's', 'e'] rest)
      else if c = '-' ∨ Decimal.IsDigit c then do
        let (_, rest) ← numeral .malformed (c :: rest)
        return ((), rest)
      else if c = '"' then do
        let (_, rest) ← quotedText true rest
        return ((), rest)
      else if c = '[' then do
        let (_, rest) ← listItems (skipValue fuel) (rest.length + 1) true rest
        return ((), rest)
      else if c = '{' then
        objectMembers true (fun _ _ cs => do skipValue fuel (← colon cs)) (rest.length + 1) true ()
          rest
      else .error .malformed

/-- Goes over the value of a member that nobody asked for. -/
def skipMember : Reader Unit := fun cs => do
  let rest ← colon cs
  skipValue (rest.length + 1) rest

/-! ## What stands where something else was asked for -/

/-- What a value is. Lists and objects are not looked into. -/
def found : List Char → Except Error Found
  | [] => .error .unfinished
  | c :: rest =>
    if c = 'n' then do
      let _ ← word ['u', 'l', 'l'] rest
      return .null
    else if c = 't' then do
      let _ ← word ['r', 'u', 'e'] rest
      return .boolean true
    else if c = 'f' then do
      let _ ← word ['a', 'l', 's', 'e'] rest
      return .boolean false
    else if c = '-' ∨ Decimal.IsDigit c then do
      let (n, _) ← number (c :: rest)
      match n with
      | .integer i => return .integer i
      | .fractional => return .fractional
    else if c = '"' then do
      let (s, _) ← quotedText false rest
      return .text s
    else if c = '[' then return .list
    else if c = '{' then return .object
    else .error .malformed

/-- The error for a value that is not of the kind asked for. -/
def wrongKind (expected : String) (cs : List Char) : Error :=
  match found cs with
  | .ok f => .mismatch (.wrongKind f expected)
  | .error e => e

end TokenLedger.Json
