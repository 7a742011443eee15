import TokenLedger.Bytes.Hex
import TokenLedger.OutputRef

/-!
Why a JSON text is not the value that was asked for. A text that is JSON but holds something else is
a mismatch and says what was found; a text that is no JSON is malformed, and one that stops too
early is unfinished.
-/

namespace TokenLedger.Json

/-- What stands where something else was asked for. -/
inductive Found where
  | null
  | boolean (b : Bool)
  | integer (n : Int)
  /-- A number with a point or an exponent, or one that no word holds. -/
  | fractional
  | text (s : String)
  | list
  | object
  /-- The name of a variant without its content. -/
  | bareVariant
deriving DecidableEq, Repr

/-- A found thing as messages show it. -/
def Found.shown : Found → String
  | null => "null"
  | boolean true => "boolean `true`"
  | boolean false => "boolean `false`"
  | integer n => s!"integer `{n}`"
  | fractional => "floating point"
  | text s =>
    let shown := Text.quoted s
    s!"string {shown}"
  | list => "sequence"
  | object => "map"
  | bareVariant => "unit variant"

/-- How a JSON text misses what was asked for. -/
inductive Mismatch where
  | missingMember (name : String)
  | repeatedMember (name : String)
  | wrongKind (found : Found) (expected : String)
  | wrongNumber (n : Int) (expected : String)
  /-- A list ends before the items of a record are complete. -/
  | wrongLength (length : Nat) (record : String) (size : Nat)
  | unknownVariant (found : String) (names : List String)
  | notHex (e : Hex.Error)
  | notReference (e : RefError)
deriving DecidableEq, Repr

/-- The names of the variants to choose from, as messages list them. -/
def choices : List String → String
  | [] => ""
  | [a] => s!"`{a}`"
  | [a, b] => s!"`{a}` or `{b}`"
  | names =>
    let listed := ", ".intercalate (names.map fun name => s!"`{name}`")
    s!"one of {listed}"

/-- The wording of a mismatch. -/
def Mismatch.message : Mismatch → String
  | missingMember name => s!"missing field `{name}`"
  | repeatedMember name => s!"duplicate field `{name}`"
  | wrongKind found expected =>
    let shown := found.shown
    s!"invalid type: {shown}, expected {expected}"
  | wrongNumber n expected => s!"invalid value: integer `{n}`, expected {expected}"
  | wrongLength length record size =>
    let items := if size = 1 then "1 element" else s!"{size} elements"
    s!"invalid length {length}, expected {record} with {items}"
  | unknownVariant found [] => s!"unknown variant `{found}`, there are no variants"
  | unknownVariant found names =>
    let listed := choices names
    s!"unknown variant `{found}`, expected {listed}"
  | notHex e => e.message
  | notReference e => e.message

/-- Why a text is not the value that was asked for. -/
inductive Error where
  | mismatch (m : Mismatch)
  /-- What stands in the place of a variant cannot be one. A text with it counts as malformed. -/
  | misplaced (m : Mismatch)
  | malformed
  | unfinished
deriving DecidableEq, Repr

/-- A reader takes a value off the front of a text. -/
abbrev Reader (α : Type) := List Char → Except Error (α × List Char)

end TokenLedger.Json
