/-!
What TOML texts hold: values, and tables that are put together from headers and dotted keys.

A table may be given in one place only. Where a table came from decides what may still be added to
it: one that was only passed through on the way to another can be given a header later, and one that
arose from dotted keys can take more dotted keys, but no header.
-/

namespace TokenLedger.Toml

/-- Where a table came from. -/
inductive Origin where
  /-- It was written as a value. -/
  | inline
  /-- It has a header of its own. -/
  | header
  /-- It lies on the way to a table with a header. -/
  | implied
  /-- It lies on the way to a dotted key. -/
  | dotted
deriving DecidableEq, Repr

/-- A value or a table. -/
inductive Node where
  | text (s : String)
  | integer (n : Int)
  /-- A value of any other kind; nothing more is asked of those. -/
  | other
  | list (items : List Node)
  | table (origin : Origin) (members : List (String × Node))
  /-- A list of tables with headers. -/
  | tables (elements : List Node)

/-- The members of a table in order. -/
abbrev Members := List (String × Node)

namespace Members

/-- The node under a name. -/
def find? (ms : Members) (name : String) : Option Node :=
  (List.find? (fun e => e.1 == name) ms).map Prod.snd

/-- The members with another node under a name. -/
def replace (ms : Members) (name : String) (node : Node) : Members :=
  ms.map fun e => if e.1 == name then (name, node) else e

end Members

/-- Whether a path may lead through a table. -/
def Origin.passable (byDottedKey : Bool) : Origin → Bool
  | inline => false
  | header => !byDottedKey
  | implied | dotted => true

/-- Goes down a path to a table and changes what is there; tables that are missing on the way arise.
Of a list of tables the last is gone through. -/
def descend (byDottedKey : Bool) (update : Origin → Members → Option Members) (origin : Origin) :
    (path : List String) → Members → Option Members
  | [], ms => update origin ms
  | name :: path, ms =>
    match ms.find? name with
    | none => do
      let arisen := if byDottedKey then Origin.dotted else Origin.implied
      let inner ← descend byDottedKey update arisen path []
      return ms ++ [(name, .table arisen inner)]
    | some (.table origin inner) =>
      if origin.passable byDottedKey then do
        let inner ← descend byDottedKey update origin path inner
        return ms.replace name (.table origin inner)
      else none
    | some (.tables elements) =>
      match elements.getLast? with
      | some (.table origin inner) => do
        let inner ← descend byDottedKey update origin path inner
        return ms.replace name (.tables (elements.dropLast ++ [.table origin inner]))
      | _ => none
    | some _ => none

/-- Puts a value under a dotted key, below a table of some origin. A table that has a header, or
lies on the way to one, takes no dotted keys from elsewhere. -/
def putKey (origin : Origin) (path : List String) (name : String) (v : Node) (ms : Members) :
    Option Members :=
  descend true
    (fun origin ms =>
      if decide (origin = .dotted) = path.isEmpty then none
      else if (ms.find? name).isSome then none
      else some (ms ++ [(name, v)]))
    origin path ms

/-- Splits a path into the way and the last name. -/
def splitLast : List String → Option (List String × String)
  | [] => none
  | names => names.getLast?.map fun last => (names.dropLast, last)

/-- Opens the table of a header. -/
def openTable (path : List String) (root : Members) : Option Members := do
  let (way, name) ← splitLast path
  descend false
    (fun _ ms =>
      match ms.find? name with
      | none => some (ms ++ [(name, .table .header [])])
      | some (.table .implied inner) => some (ms.replace name (.table .header inner))
      | some _ => none)
    .header way root

/-- Opens one more table of a list. -/
def openElement (path : List String) (root : Members) : Option Members := do
  let (way, name) ← splitLast path
  descend false
    (fun _ ms =>
      match ms.find? name with
      | none => some (ms ++ [(name, .tables [.table .header []])])
      | some (.tables elements) =>
        some (ms.replace name (.tables (elements ++ [.table .header []])))
      | some _ => none)
    .header way root

/-- Puts a value under a dotted key of the table that a header opened. -/
def putBelow (header : List String) (path : List String) (name : String) (v : Node)
    (root : Members) : Option Members :=
  descend false (fun origin ms => putKey origin path name v ms) .header header root

end TokenLedger.Toml
