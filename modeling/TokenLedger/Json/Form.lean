import TokenLedger.Json.Scan
import TokenLedger.SortedMap

/-!
JSON forms, put together from parts. A form writes a value without blanks and reads one off the
front of a text.

A record is written as an object with its members in order. It is read from such an object, with the
members in any order and others among them, or from a list of the values of its members.
-/

namespace TokenLedger.Json

/-! ## Writing -/

/-- A character inside a quoted text. -/
def writeChar (c : Char) : List Char :=
  if c = '"' then ['\\', '"']
  else if c = '\\' then ['\\', '\\']
  else if c = '\x08' then ['\\', 'b']
  else if c = '\x0c' then ['\\', 'f']
  else if c = '\n' then ['\\', 'n']
  else if c = '\r' then ['\\', 'r']
  else if c = '\t' then ['\\', 't']
  else if c.toNat < 0x20 then
    ['\\', 'u', '0', '0', Text.hexDigit (c.toNat / 16), Text.hexDigit (c.toNat % 16)]
  else [c]

/-- A text in quotes. -/
def writeText (s : String) : List Char := '"' :: s.toList.flatMap writeChar ++ ['"']

/-- An integer in base ten. -/
def writeInteger (n : Int) : List Char :=
  if n < 0 then '-' :: Decimal.digits n.natAbs else Decimal.digits n.natAbs

/-- Parts with commas between them. -/
def withCommas : List (List Char) → List Char
  | [] => []
  | [part] => part
  | part :: parts => part ++ ',' :: withCommas parts

/-- A member of an object. -/
def writeMember (name : String) (value : List Char) : List Char := writeText name ++ ':' :: value

/-- A way of writing values as JSON and reading them back off the front of a text. -/
structure Form (α : Type) where
  write : α → List Char
  read : Reader α

namespace Form

variable {α β : Type}

/-- The JSON text of a value. -/
def text (f : Form α) (a : α) : String := String.ofList (f.write a)

/-- The value of a whole text, with nothing but blanks after it. -/
def ofText (f : Form α) (s : String) : Except Error α := do
  let (a, rest) ← f.read s.toList
  if skipBlank rest = [] then return a else .error .malformed

/-- The same text for values of another type. -/
def imap (f : Form α) (forth : α → β) (back : β → α) : Form β where
  write b := f.write (back b)
  read cs := do
    let (a, rest) ← f.read cs
    return (forth a, rest)

/-- The same text for values that not every read value stands for. -/
def refine (f : Form α) (forth : α → Except Mismatch β) (back : β → α) : Form β where
  write b := f.write (back b)
  read cs := do
    let (a, rest) ← f.read cs
    match forth a with
    | .ok b => return (b, rest)
    | .error m => .error (.mismatch m)

/-! ## Parts -/

/-- An integer of those that `ofInt?` takes. -/
def integer (expected : String) (ofInt? : Int → Option α) (toInt : α → Int) : Form α where
  write a := writeInteger (toInt a)
  read cs :=
    match skipBlank cs with
    | [] => .error .unfinished
    | c :: rest =>
      if c = '-' ∨ Decimal.IsDigit c then do
        let (n, rest) ← number (c :: rest)
        match n with
        | .integer n =>
          match ofInt? n with
          | some a => return (a, rest)
          | none => .error (.mismatch (.wrongNumber n expected))
        | .fractional => .error (.mismatch (.wrongKind .fractional expected))
      else .error (wrongKind expected (c :: rest))

/-- The natural number below a bound that an integer is. -/
def below? (bound : Nat) (n : Int) : Option Nat :=
  if 0 ≤ n ∧ n < bound then some n.toNat else none

def word8 : Form UInt8 :=
  integer "u8" (fun n => (below? UInt8.size n).map UInt8.ofNat) fun a => a.toNat

def word32 : Form UInt32 :=
  integer "u32" (fun n => (below? UInt32.size n).map UInt32.ofNat) fun a => a.toNat

def word64 : Form UInt64 :=
  integer "u64" (fun n => (below? UInt64.size n).map UInt64.ofNat) fun a => a.toNat

def int32 : Form Int32 :=
  integer "i32" (fun n => if -0x80000000 ≤ n ∧ n < 0x80000000 then some (Int32.ofInt n) else none)
    Int32.toInt

/-- A text, called `expected` where it is missing. -/
def quotedAs (expected : String) : Form String where
  write := writeText
  read cs :=
    match skipBlank cs with
    | [] => .error .unfinished
    | c :: rest =>
      if c = '"' then quotedText false rest else .error (wrongKind expected (c :: rest))

def string : Form String := quotedAs "a string"

/-- A reference goes by its text. -/
def reference : Form OutputRef := string.refine
  (fun s =>
    match OutputRef.parse s with
    | .ok r => .ok r
    | .error e => .error (.notReference e))
  OutputRef.text

/-- Bytes as hexadecimal text. -/
def hex : Form Bytes := string.refine
  (fun s =>
    match Hex.decode s with
    | .ok bytes => .ok bytes
    | .error e => .error (.notHex e))
  Hex.encode

def bool : Form Bool where
  write b := if b then "true".toList else "false".toList
  read cs :=
    match skipBlank cs with
    | [] => .error .unfinished
    | c :: rest =>
      if c = 't' then do return (true, ← word ['r', 'u', 'e'] rest)
      else if c = 'f' then do return (false, ← word ['a', 'l', 's', 'e'] rest)
      else .error (wrongKind "a boolean" (c :: rest))

/-- A value that may be absent: null is its absence. -/
def option (f : Form α) : Form (Option α) where
  write
    | none => ['n', 'u', 'l', 'l']
    | some a => f.write a
  read cs :=
    match skipBlank cs with
    | [] => .error .unfinished
    | c :: rest =>
      if c = 'n' then do return (none, ← word ['u', 'l', 'l'] rest)
      else do
        let (a, rest) ← f.read (c :: rest)
        return (some a, rest)

def list (f : Form α) : Form (List α) where
  write as := '[' :: withCommas (as.map f.write) ++ [']']
  read cs :=
    match skipBlank cs with
    | [] => .error .unfinished
    | c :: rest =>
      if c = '[' then listItems f.read (rest.length + 1) true rest
      else .error (wrongKind "a sequence" (c :: rest))

/-- A map as an object whose names are the keys; of two values under one key the later counts. -/
def map {κ ν : Type} [Ord κ] [Std.TransOrd κ] [Std.LawfulEqOrd κ]
    (keyText : κ → String) (ofKeyText : String → Except Mismatch κ) (f : Form ν) :
    Form (SortedMap κ ν) where
  write m :=
    '{' :: withCommas (m.toList.map fun e => writeMember (keyText e.1) (f.write e.2)) ++ ['}']
  read cs :=
    match skipBlank cs with
    | [] => .error .unfinished
    | c :: rest =>
      if c = '{' then
        objectMembers false
          (fun name m cs =>
            match ofKeyText name with
            | .error e => .error (.mismatch e)
            | .ok k => do
              let (v, cs) ← f.read (← colon cs)
              return (m.insert k v, cs))
          (rest.length + 1) true SortedMap.empty rest
      else .error (wrongKind "a map" (c :: rest))

/-! ## Variants -/

/-- Reads what stands in the place of a variant: its name alone, or an object with its name and its
content. -/
def readVariant (bare : String → Except Error α) (withContent : String → Except Error (Reader α)) :
    Reader α := fun cs =>
  match skipBlank cs with
  | [] => .error .unfinished
  | c :: rest =>
    if c = '"' then do
      let (name, rest) ← quotedText false rest
      return (← bare name, rest)
    else if c = '{' then do
      let (name, rest) ← (quotedAs "variant identifier").read rest
      let content ← withContent name
      let (a, rest) ← content (← colon rest)
      return (a, ← closing '}' rest)
    else
      match found (c :: rest) with
      | .ok f => .error (.misplaced (.wrongKind f "string or map"))
      | .error _ => .error .malformed

/-- The empty content of a variant. -/
def readNull : Reader Unit := fun cs =>
  match skipBlank cs with
  | [] => .error .unfinished
  | c :: rest =>
    if c = 'n' then do return ((), ← word ['u', 'l', 'l'] rest)
    else .error (wrongKind "unit" (c :: rest))

/-- One of some variants without content goes by its name. -/
def variant (all : List α) (name : α → String) : Form α :=
  let named (s : String) : Except Error α :=
    match all.find? fun a => name a == s with
    | some a => .ok a
    | none => .error (.mismatch (.unknownVariant s (all.map name)))
  { write := fun a => writeText (name a)
    read := readVariant named fun s => do
      let a ← named s
      return fun cs => do
        let (_, rest) ← readNull cs
        return (a, rest) }

/-- One of some variants with content: an object with the name of the variant and the content. -/
def tagged (cases : List (String × Reader α)) (write : α → String × List Char) : Form α :=
  let named (s : String) : Except Error (Reader α) :=
    match cases.find? fun e => e.1 == s with
    | some e => .ok e.2
    | none => .error (.mismatch (.unknownVariant s (cases.map Prod.fst)))
  { write := fun a =>
      let (name, content) := write a
      '{' :: writeMember name content ++ ['}']
    read := readVariant
      (fun s => do
        let _ ← named s
        .error (.mismatch (.wrongKind .bareVariant "newtype variant")))
      named }

end Form

/-! ## Records -/

/-- The members of a record, which together make a value. While an object is read, a draft holds the
members that were met so far. -/
structure Members (α : Type) where
  Draft : Type
  blank : Draft
  /-- How many members there are. -/
  size : Nat
  /-- The members in order, as they are written. -/
  write : α → List (List Char)
  /-- The reader of the member of a name, from the colon on. -/
  named? : String → Option (Draft → Reader Draft)
  /-- Reads the members as items of a list, of which `index` were read before. -/
  readItems : (tooShort : Nat → Error) → (index : Nat) → Reader α
  /-- The value, once the object is complete. -/
  finish : Draft → Except Error α

namespace Members

variable {α β : Type}

/-- A single member. One with a default may be missing. -/
def one (name : String) (f : Form α) (default? : Option α := none) : Members α where
  Draft := Option α
  blank := none
  size := 1
  write a := [writeMember name (f.write a)]
  named? s :=
    if s = name then some fun draft cs =>
      match draft with
      | some _ => .error (.mismatch (.repeatedMember name))
      | none => do
        let (a, cs) ← f.read (← colon cs)
        return (some a, cs)
    else none
  readItems tooShort index cs := do
    match ← nextItem (index == 0) cs with
    | some cs => f.read cs
    | none =>
      match default? with
      | some a => return (a, cs)
      | none => .error (tooShort index)
  finish draft :=
    match draft, default? with
    | some a, _ => .ok a
    | none, some a => .ok a
    | none, none => .error (.mismatch (.missingMember name))

/-- Members and after them others. -/
def and (m : Members α) (n : Members β) : Members (α × β) where
  Draft := m.Draft × n.Draft
  blank := (m.blank, n.blank)
  size := m.size + n.size
  write v := m.write v.1 ++ n.write v.2
  named? s :=
    match m.named? s, n.named? s with
    | some read, _ => some fun draft cs => do
      let (d, cs) ← read draft.1 cs
      return ((d, draft.2), cs)
    | none, some read => some fun draft cs => do
      let (d, cs) ← read draft.2 cs
      return ((draft.1, d), cs)
    | none, none => none
  readItems tooShort index cs := do
    let (a, cs) ← m.readItems tooShort index cs
    let (b, cs) ← n.readItems tooShort (index + m.size) cs
    return ((a, b), cs)
  finish draft := do
    let a ← m.finish draft.1
    let b ← n.finish draft.2
    return (a, b)

/-- Reads one member of an object into the draft; others are skipped over. -/
def readMember (m : Members α) (name : String) (draft : m.Draft) : Reader m.Draft := fun cs =>
  match m.named? name with
  | some read => read draft cs
  | none => do
    let (_, rest) ← skipMember cs
    return (draft, rest)

/-- The form of a record; `name` is what it is called where it is missing. -/
def record (m : Members α) (name : String) : Form α where
  write a := '{' :: withCommas (m.write a) ++ ['}']
  read cs :=
    match skipBlank cs with
    | [] => .error .unfinished
    | c :: rest =>
      if c = '{' then do
        let (draft, rest) ← objectMembers false m.readMember (rest.length + 1) true m.blank rest
        return (← m.finish draft, rest)
      else if c = '[' then do
        let (a, rest) ← m.readItems (fun n => .mismatch (.wrongLength n name m.size)) 0 rest
        return (a, ← closing ']' rest)
      else .error (wrongKind name (c :: rest))

end Members

end TokenLedger.Json
