import TokenLedger.Toml.Node
import TokenLedger.Toml.Scan

/-!
Reading TOML texts. A text is a run of lines: settings, each below the last header, and headers.
-/

namespace TokenLedger.Toml

/-! ## Values -/

/-- The items of a list up to and with its end; there are fewer than `fuel`. -/
def listItems (item : Reader Node) : (fuel : Nat) → Reader (List Node)
  | 0, _ => none
  | fuel + 1, cs => do
    match ← gap (cs.length + 1) cs with
    | ']' :: rest => return ([], rest)
    | cs =>
      let (v, cs) ← item cs
      match ← gap (cs.length + 1) cs with
      | ']' :: rest => return ([v], rest)
      | ',' :: rest =>
        let (vs, rest) ← listItems item fuel rest
        return (v :: vs, rest)
      | _ => none

/-- A key and its value. -/
def setting (value : Reader Node) : Reader (List String × Node) := fun cs => do
  let (path, cs) ← key cs
  let cs ← word ['='] cs
  let (v, cs) ← value (skipBlank cs)
  return ((path, v), cs)

/-- The settings of a table on one line up to and with its end; there are fewer than `fuel`. -/
def inlineSettings (value : Reader Node) : (fuel : Nat) → Reader (List (List String × Node))
  | 0, _ => none
  | fuel + 1, cs => do
    let (s, cs) ← setting value cs
    match skipBlank cs with
    | '}' :: rest => return ([s], rest)
    | ',' :: rest =>
      let (ss, rest) ← inlineSettings value fuel rest
      return (s :: ss, rest)
    | _ => none

/-- The members that settings make. -/
def membersOf (settings : List (List String × Node)) : Option Members :=
  settings.foldlM
    (fun ms s => do
      let (way, name) ← splitLast s.1
      putKey .inline way name s.2 ms)
    []

/-- A table on one line, after its opening brace. -/
def inlineTable (value : Reader Node) : Reader Node := fun cs => do
  match skipBlank cs with
  | '}' :: rest => return (.table .inline [], rest)
  | _ =>
    let (settings, rest) ← inlineSettings value (cs.length + 1) cs
    return (.table .inline (← membersOf settings), rest)

/-- A number, a date or a time. -/
def numberOrDate (cs : List Char) : Option (Node × List Char) :=
  match dateTime cs with
  | some (_, rest) => some (.other, rest)
  | none =>
    match special cs with
    | some (_, rest) => some (.other, rest)
    | none =>
      match fractional cs with
      | some (_, rest) => some (.other, rest)
      | none => (integer cs).map fun (n, rest) => (.integer n, rest)

/-- A value nested at most `depth` deep. -/
def value : (depth : Nat) → Reader Node
  | depth, cs =>
    match cs with
    | [] => none
    | c :: rest =>
      if c = '"' ∨ c = '\'' then do
        let (s, rest) ← quotedText cs
        return (.text s, rest)
      else if c = '[' then
        match depth with
        | 0 => none
        | depth + 1 => do
          let (items, rest) ← listItems (value depth) (rest.length + 1) rest
          return (.list items, rest)
      else if c = '{' then
        match depth with
        | 0 => none
        | depth + 1 => inlineTable (value depth) rest
      else if c = 't' then do return (.other, ← word ['t', 'r', 'u', 'e'] cs)
      else if c = 'f' then do return (.other, ← word ['f', 'a', 'l', 's', 'e'] cs)
      else if c = 'i' ∨ c = 'n' ∨ c = '+' ∨ c = '-' ∨ isDigit c then numberOrDate cs
      else none

/-! ## Texts -/

/-- A header after its opening brackets. -/
def header (closer : List Char) : Reader (List String) := fun cs => do
  let (path, cs) ← key cs
  return (path, ← lineEnd (← word closer cs))

/-- Reads a line on top of what was read; `current` is the path of the last header. -/
def line (current : List String) (root : Members) (cs : List Char) :
    Option (List String × Members × List Char) :=
  match cs with
  | '[' :: '[' :: rest => do
    let (path, rest) ← header [']', ']'] rest
    return (path, ← openElement path root, rest)
  | '[' :: rest => do
    let (path, rest) ← header [']'] rest
    return (path, ← openTable path root, rest)
  | _ => do
    let ((path, v), rest) ← setting (value depthLimit) cs
    let rest ← lineEnd rest
    let (way, name) ← splitLast path
    return (current, ← putBelow current way name v root, rest)

/-- Reads lines to the end of the text, which has fewer than `fuel` characters. -/
def lines : (fuel : Nat) → (current : List String) → Members → List Char → Option Members
  | 0, _, _, _ => none
  | fuel + 1, current, root, cs =>
    match skipBlank cs with
    | [] => some root
    | '#' :: rest => do lines fuel current root (← lineEnd ('#' :: rest))
    | c :: rest =>
      if c = '\n' ∨ c = '\r' then do lines fuel current root (← newline (c :: rest))
      else do
        let (current, root, rest) ← line current root (c :: rest)
        lines fuel current root rest

/-- The members of a whole text. A byte order mark in front of it is passed over. -/
def parse? (s : String) : Option Members :=
  let cs :=
    match s.toList with
    | '\uFEFF' :: rest => rest
    | cs => cs
  lines (cs.length + 1) [] [] cs

end TokenLedger.Toml
