import TokenLedger.Text.Decimal
import TokenLedger.Text.Hexadecimal

/-!
The parts of TOML texts: blanks, comments, quoted texts, names, numbers and dates. Each reader takes
its part off the front of a text, or finds none.
-/

namespace TokenLedger.Toml

/-- A reader takes a value off the front of a text. -/
abbrev Reader (α : Type) := List Char → Option (α × List Char)

/-- Whether a character may stand between parts on a line. -/
def IsBlank (c : Char) : Bool := c == ' ' || c == '\t'

/-- A line from its next part on. -/
def skipBlank (cs : List Char) : List Char := cs.dropWhile IsBlank

/-- Whether a character may stand in a comment or, but for the quotes, in a text. -/
def IsPlain (c : Char) : Bool := c == '\t' || (0x20 ≤ c.toNat && c.toNat ≠ 0x7F)

/-- The text after the end of a line. -/
def newline : List Char → Option (List Char)
  | '\n' :: rest => some rest
  | '\r' :: '\n' :: rest => some rest
  | _ => none

/-- The text after a comment, if there is one. -/
def skipComment : List Char → List Char
  | '#' :: rest => rest.dropWhile IsPlain
  | cs => cs

/-- The text after a line with nothing more on it. -/
def lineEnd (cs : List Char) : Option (List Char) :=
  match skipComment (skipBlank cs) with
  | [] => some []
  | cs => newline cs

/-- The text after blanks, comments and ends of lines, of which there are fewer than `fuel`. -/
def gap : (fuel : Nat) → List Char → Option (List Char)
  | 0, _ => none
  | fuel + 1, cs =>
    match skipBlank cs with
    | '#' :: rest => do gap fuel (← newline (rest.dropWhile IsPlain))
    | '\n' :: rest => gap fuel rest
    | '\r' :: rest => do gap fuel (← newline ('\r' :: rest))
    | cs => some cs

/-! ## Quoted texts -/

/-- The character whose number is written with some digits. -/
def numberedChar (width : Nat) (cs : List Char) : Option (Char × List Char) := do
  let digits ← (cs.take width).mapM Text.hexDigitValue?
  if digits.length = width then
    let n := digits.foldl (fun n d => n * 16 + d) 0
    if n < 0xD800 ∨ (0xDFFF < n ∧ n < 0x110000) then return (Char.ofNat n, cs.drop width)
    else none
  else none

/-- A character that is written with a backslash. -/
def escapedChar : Reader Char
  | 'b' :: rest => some ('\x08', rest)
  | 'f' :: rest => some ('\x0c', rest)
  | 'n' :: rest => some ('\n', rest)
  | 'r' :: rest => some ('\r', rest)
  | 't' :: rest => some ('\t', rest)
  | '"' :: rest => some ('"', rest)
  | '\\' :: rest => some ('\\', rest)
  | 'u' :: rest => numberedChar 4 rest
  | 'U' :: rest => numberedChar 8 rest
  | _ => none

/-- The characters of a text on one line up to its closing quote; there are at most `fuel`. -/
def lineText (quote : Char) : (fuel : Nat) → Reader (List Char)
  | _, [] => none
  | 0, _ => none
  | fuel + 1, c :: cs =>
    if c = quote then some ([], cs)
    else if c = '\\' ∧ quote = '"' then do
      let (e, cs) ← escapedChar cs
      let (text, cs) ← lineText quote fuel cs
      return (e :: text, cs)
    else if IsPlain c then do
      let (text, cs) ← lineText quote fuel cs
      return (c :: text, cs)
    else none

/-- The text after a backslash at the end of a line: blanks and ends of lines are passed over. -/
def skipLines : (fuel : Nat) → List Char → List Char
  | 0, cs => cs
  | fuel + 1, cs =>
    match newline (skipBlank cs) with
    | some rest => skipLines fuel rest
    | none => skipBlank cs

/-- The characters of a text on several lines up to its closing quotes; there are at most `fuel`.
One or two quotes may stand anywhere in it, also right before the closing ones. -/
def linesText (quote : Char) : (fuel : Nat) → Reader (List Char)
  | _, [] => none
  | 0, _ => none
  | fuel + 1, c :: cs =>
    if c = quote then
      let run := (cs.takeWhile (· == quote)).length
      if run < 2 then do
        let (text, cs) ← linesText quote fuel cs
        return (c :: text, cs)
      else
        let inside := min (run - 2) 2
        some (List.replicate inside quote, cs.drop (inside + 2))
    else if c = '\\' ∧ quote = '"' then
      match newline (skipBlank cs) with
      | some rest => linesText quote fuel (skipLines rest.length rest)
      | none => do
        let (e, cs) ← escapedChar cs
        let (text, cs) ← linesText quote fuel cs
        return (e :: text, cs)
    else
      match newline (c :: cs) with
      | some rest => do
        let (text, cs) ← linesText quote fuel rest
        return ('\n' :: text, cs)
      | none =>
        if IsPlain c then do
          let (text, cs) ← linesText quote fuel cs
          return (c :: text, cs)
        else none

/-- A text in quotes of either kind, on one line or on several. -/
def quotedText : Reader String
  | q :: cs =>
    if q = '"' ∨ q = '\'' then do
      if cs.take 2 = [q, q] then
        let body := cs.drop 2
        let body := (newline body).getD body
        let (text, rest) ← linesText q body.length body
        return (String.ofList text, rest)
      else
        let (text, rest) ← lineText q cs.length cs
        return (String.ofList text, rest)
    else none
  | [] => none

/-! ## Names -/

/-- Whether a character may stand in a name without quotes. -/
def IsBare (c : Char) : Bool :=
  let n := c.toNat
  (0x30 ≤ n && n ≤ 0x39) || (0x41 ≤ n && n ≤ 0x5A) || (0x61 ≤ n && n ≤ 0x7A) || c == '-' || c == '_'

/-- A single name. -/
def name (cs : List Char) : Option (String × List Char) :=
  match cs with
  | q :: rest =>
    if q = '"' ∨ q = '\'' then do
      let (text, rest) ← lineText q rest.length rest
      return (String.ofList text, rest)
    else
      let bare := cs.takeWhile IsBare
      if bare = [] then none else some (String.ofList bare, cs.dropWhile IsBare)
  | [] => none

/-- Names with dots between them, of which there are at most `fuel`. -/
def names : (fuel : Nat) → Reader (List String)
  | 0, _ => none
  | fuel + 1, cs => do
    let (n, cs) ← name (skipBlank cs)
    match skipBlank cs with
    | '.' :: rest =>
      let (ns, rest) ← names fuel rest
      return (n :: ns, rest)
    | rest => return ([n], rest)

/-- How deep tables and lists may be nested, and how many names a key may have. -/
def depthLimit : Nat := 79

/-- A dotted key. -/
def key : Reader (List String) := names depthLimit

/-! ## Numbers -/

/-- Whether a character is one of the ten digits. -/
def isDigit (c : Char) : Bool := decide (Decimal.IsDigit c)

/-- Digits, single underscores between them. -/
def digitRun (isDigit : Char → Bool) : List Char → Option (List Char × List Char)
  | [] => none
  | c :: '_' :: rest => do
    if isDigit c then
      let (ds, rest) ← digitRun isDigit rest
      return (c :: ds, rest)
    else none
  | c :: cs =>
    if isDigit c then
      match digitRun isDigit cs with
      | some (ds, rest) => some (c :: ds, rest)
      | none => some ([c], cs)
    else none

/-- A sign, if there is one: whether it is a minus sign. -/
def sign : List Char → Bool × List Char
  | '-' :: cs => (true, cs)
  | '+' :: cs => (false, cs)
  | cs => (false, cs)

/-- The digits of a whole number; a zero stands alone. -/
def wholeDigits : List Char → Option (List Char × List Char)
  | '0' :: rest => some (['0'], rest)
  | cs => digitRun isDigit cs

/-- A whole number in base ten, if a signed word holds it. -/
def decimalInteger : Reader Int := fun cs => do
  let (negative, cs) := sign cs
  let (ds, rest) ← wholeDigits cs
  let n : Int := Decimal.value ds
  let n := if negative then -n else n
  if -0x8000000000000000 ≤ n ∧ n < 0x8000000000000000 then return (n, rest) else none

/-- A whole number in another base, whose digits come after a zero and a letter. -/
def basedInteger (base : Nat) : Reader Int := fun cs => do
  let isDigit (c : Char) := (Text.hexDigitValue? c).any (· < base)
  let (ds, rest) ← digitRun isDigit cs
  let n := ds.foldl (fun n c => n * base + (Text.hexDigitValue? c).getD 0) 0
  if n < 0x8000000000000000 then return ((n : Int), rest) else none

/-- A whole number. -/
def integer : Reader Int
  | '0' :: 'x' :: rest => basedInteger 16 rest
  | '0' :: 'o' :: rest => basedInteger 8 rest
  | '0' :: 'b' :: rest => basedInteger 2 rest
  | cs => decimalInteger cs

/-- Whether `digits` times a power of ten is too large for any double-precision number. -/
def tooLarge (digits : List Char) (exponent : Int) : Bool :=
  let significant := digits.dropWhile (· == '0')
  let size : Int := significant.length + exponent
  if significant = [] then false
  else if 310 < size then true
  else if size < 300 then false
  else
    let n := Decimal.value significant
    let limit := Nat.pow 2 1024 - Nat.pow 2 970
    if 0 ≤ exponent then decide (limit ≤ n * Nat.pow 10 exponent.toNat)
    else decide (limit * Nat.pow 10 (-exponent).toNat ≤ n)

/-- The digits after a point. -/
def fraction : List Char → Option (List Char × List Char)
  | '.' :: cs => digitRun isDigit cs
  | _ => none

/-- An exponent. -/
def exponent : Reader Int
  | c :: cs =>
    if c = 'e' ∨ c = 'E' then do
      let (negative, cs) := sign cs
      let (ds, rest) ← digitRun isDigit cs
      let n : Int := Decimal.value ds
      return (if negative then -n else n, rest)
    else none
  | [] => none

/-- The digits of a number with a point or an exponent, and the power of ten that they are scaled
by. -/
def scaledDigits : Reader (List Char × Int) := fun cs => do
  let (whole, cs) ← wholeDigits cs
  match fraction cs with
  | some (after, cs) =>
    match exponent cs with
    | some (e, rest) => return ((whole ++ after, e - after.length), rest)
    | none => return ((whole ++ after, -after.length), cs)
  | none =>
    let (e, rest) ← exponent cs
    return ((whole, e), rest)

/-- A number with a point or an exponent. A positive one must not be too large. -/
def fractional : Reader Unit := fun cs => do
  let (negative, cs) := sign cs
  let ((digits, e), rest) ← scaledDigits cs
  if !negative && tooLarge digits e then none else return ((), rest)

/-- A word at the front of a text. -/
def word (w : List Char) (cs : List Char) : Option (List Char) :=
  if cs.take w.length = w then some (cs.drop w.length) else none

/-- A number that is none, or infinite, after a sign or not. -/
def special : Reader Unit := fun cs =>
  let (_, cs) := sign cs
  match word ['i', 'n', 'f'] cs with
  | some rest => some ((), rest)
  | none => (word ['n', 'a', 'n'] cs).map fun rest => ((), rest)

/-! ## Dates and times -/

/-- A number of exactly some digits that lies between two others. -/
def fixedNumber (width low high : Nat) : Reader Nat := fun cs =>
  let ds := cs.take width
  let n := Decimal.value ds
  if ds.length = width ∧ ds.all isDigit ∧ low ≤ n ∧ n ≤ high then some (n, cs.drop width) else none

/-- How many days a month has. -/
def daysIn (year month : Nat) : Nat :=
  if month = 2 then
    if year % 4 = 0 ∧ (year % 100 ≠ 0 ∨ year % 400 = 0) then 29 else 28
  else if month = 4 ∨ month = 6 ∨ month = 9 ∨ month = 11 then 30
  else 31

/-- A date. -/
def date : Reader Unit := fun cs => do
  let (year, cs) ← fixedNumber 4 0 9999 cs
  let (month, cs) ← fixedNumber 2 1 12 (← word ['-'] cs)
  let (_, cs) ← fixedNumber 2 1 (daysIn year month) (← word ['-'] cs)
  return ((), cs)

/-- A time of day. -/
def time : Reader Unit := fun cs => do
  let (_, cs) ← fixedNumber 2 0 23 cs
  let (_, cs) ← fixedNumber 2 0 59 (← word [':'] cs)
  let (_, cs) ← fixedNumber 2 0 60 (← word [':'] cs)
  match cs with
  | '.' :: rest =>
    if rest.takeWhile isDigit = [] then return ((), cs)
    else return ((), rest.dropWhile isDigit)
  | _ => return ((), cs)

/-- How far a time is off, if that is said. -/
def offset (cs : List Char) : List Char :=
  match cs with
  | c :: rest =>
    if c = 'Z' ∨ c = 'z' then rest
    else if c = '+' ∨ c = '-' then
      let read : Option (List Char) := do
        let (_, cs) ← fixedNumber 2 0 23 rest
        let (_, cs) ← fixedNumber 2 0 59 (← word [':'] cs)
        return cs
      read.getD cs
    else cs
  | [] => []

/-- A date, a time, or both. -/
def dateTime : Reader Unit := fun cs =>
  match date cs with
  | some (_, rest) =>
    match rest with
    | c :: after =>
      if c = 'T' ∨ c = 't' ∨ c = ' ' then
        match time after with
        | some (_, cs) => some ((), offset cs)
        | none => some ((), rest)
      else some ((), rest)
    | [] => some ((), [])
  | none => time cs

end TokenLedger.Toml
