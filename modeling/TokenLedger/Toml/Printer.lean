import TokenLedger.Text.Decimal
import TokenLedger.Text.Quoted

/-!
Writing TOML texts. A text goes in the plainest quotes that hold it: double quotes where nothing has
to be escaped, then single quotes, then either kind three times over, and escapes where nothing else
will do. A list of several items has a line for each.
-/

namespace TokenLedger.Toml

/-- What in a text bears on how it is quoted. -/
structure TextTraits where
  /-- The longest run of single quotes. -/
  singleQuotes : Nat
  /-- The longest run of double quotes. -/
  doubleQuotes : Nat
  backslash : Bool
  newline : Bool
  /-- Whether there are control characters that only an escape can stand for. -/
  control : Bool

/-- The length of the longest run of a character, of which `run` came directly before. -/
def longestRun (c : Char) (run : Nat) : List Char → Nat
  | [] => run
  | d :: rest => if d = c then longestRun c (run + 1) rest else max run (longestRun c 0 rest)

/-- Whether a character is a control character that only an escape can stand for. -/
def IsControl (c : Char) : Bool :=
  (c.toNat < 0x20 || c.toNat == 0x7F) && c ≠ '\t' && c ≠ '\n'

/-- The traits of a text. -/
def TextTraits.of (cs : List Char) : TextTraits where
  singleQuotes := longestRun '\'' 0 cs
  doubleQuotes := longestRun '"' 0 cs
  backslash := cs.contains '\\'
  newline := cs.contains '\n'
  control := cs.any IsControl

/-- A control character by its number. -/
def byNumber (c : Char) : List Char :=
  let digit (n : Nat) : Char := if n < 10 then Char.ofNat (0x30 + n) else Char.ofNat (0x37 + n)
  ['\\', 'u', '0', '0', digit (c.toNat / 16), digit (c.toNat % 16)]

/-- How a character is written in a text whose escapes count, if not as itself. -/
def escape? (onLines : Bool) (c : Char) : Option (List Char) :=
  if c = '\x08' then some ['\\', 'b']
  else if c = '\t' then some ['\\', 't']
  else if c = '\n' then if onLines then none else some ['\\', 'n']
  else if c = '\x0c' then some ['\\', 'f']
  else if c = '\r' then some ['\\', 'r']
  else if c = '\\' then some ['\\', '\\']
  else if c.toNat < 0x20 || c.toNat == 0x7F then some (byNumber c)
  else none

/-- The characters of a text whose escapes count. Of quotes in a row every third is escaped where
the text is on several lines, and every one where it is not; `run` came directly before. -/
def escaped (onLines : Bool) (run : Nat) : List Char → List Char
  | [] => []
  | c :: rest =>
    if c = '"' then
      if (if onLines then 2 else 0) ≤ run then '\\' :: '"' :: escaped onLines 0 rest
      else '"' :: escaped onLines (run + 1) rest
    else
      match escape? onLines c with
      | some written => written ++ escaped onLines 0 rest
      | none => c :: escaped onLines 0 rest

/-- A text in quotes. -/
def writeText (s : String) : List Char :=
  let cs := s.toList
  let t := TextTraits.of cs
  let firstLine := if t.newline then ['\n'] else []
  let basic := '"' :: escaped false 0 cs ++ ['"']
  let lines := ['"', '"', '"'] ++ firstLine ++ escaped true 0 cs ++ ['"', '"', '"']
  if !t.control && !t.backslash && t.doubleQuotes == 0 && !t.newline then basic
  else if !t.control && t.singleQuotes == 0 && !t.newline then '\'' :: cs ++ ['\'']
  else if !t.control && !t.backslash && t.doubleQuotes ≤ 2 then lines
  else if !t.control && t.singleQuotes ≤ 2 then
    ['\'', '\'', '\''] ++ firstLine ++ cs ++ ['\'', '\'', '\'']
  else if t.newline then lines
  else basic

/-- A list of texts. -/
def writeTexts : List String → List Char
  | [] => ['[', ']']
  | [s] => '[' :: writeText s ++ [']']
  | ss => '[' :: ss.flatMap (fun s => '\n' :: List.replicate 4 ' ' ++ writeText s ++ [','])
    ++ ['\n', ']']

/-- A number, if the format holds it: only half of the words fit. -/
def writeWord? (n : UInt64) : Option (List Char) :=
  if n.toNat < 0x8000000000000000 then some (Decimal.digits n.toNat) else none

/-- A line with a setting. -/
def writeSetting (name : String) (value : List Char) : List Char :=
  name.toList ++ " = ".toList ++ value ++ ['\n']

/-- A line with a header, after an empty line. -/
def writeHeader (name : String) : List Char := '\n' :: '[' :: name.toList ++ [']', '\n']

end TokenLedger.Toml
