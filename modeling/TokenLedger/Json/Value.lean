import TokenLedger.Json.Form

/-!
JSON values that are kept whole, for texts of which only a part is of interest. Nesting is limited,
so that a text from elsewhere cannot exhaust the reader.
-/

namespace TokenLedger.Json

/-- A JSON value. -/
inductive Value where
  | null
  | boolean (b : Bool)
  | number (n : Number)
  | text (s : String)
  | list (items : List Value)
  | object (members : List (String × Value))

namespace Value

/-- How deep values may be nested. -/
def depthLimit : Nat := 127

/-- Reads a value nested at most `depth` deep. -/
def read : (depth : Nat) → Reader Value
  | depth, cs =>
    match skipBlank cs with
    | [] => .error .unfinished
    | c :: rest =>
      if c = 'n' then do return (.null, ← word ['u', 'l', 'l'] rest)
      else if c = 't' then do return (.boolean true, ← word ['r', 'u', 'e'] rest)
      else if c = 'f' then do return (.boolean false, ← word ['a', 'l', 's', 'e'] rest)
      else if c = '-' ∨ Decimal.IsDigit c then do
        let (n, rest) ← Json.number (c :: rest)
        return (.number n, rest)
      else if c = '"' then do
        let (s, rest) ← quotedText false rest
        return (.text s, rest)
      else if c = '[' then
        match depth with
        | 0 => .error .malformed
        | depth + 1 => do
          let (items, rest) ← listItems (read depth) (rest.length + 1) true rest
          return (.list items, rest)
      else if c = '{' then
        match depth with
        | 0 => .error .malformed
        | depth + 1 => do
          let member (name : String) (ms : List (String × Value)) :
              Reader (List (String × Value)) := fun cs => do
            let (v, cs) ← read depth (← colon cs)
            return (ms ++ [(name, v)], cs)
          let (members, rest) ← objectMembers false member (rest.length + 1) true [] rest
          return (.object members, rest)
      else .error .malformed

/-- The value of a whole text. -/
def ofText (s : String) : Except Error Value := do
  let (v, rest) ← read depthLimit s.toList
  if skipBlank rest = [] then return v else .error .malformed

/-- The value under a name; of two under one name the later counts. -/
def member? (name : String) : Value → Option Value
  | object members => (members.findRev? fun e => e.1 == name).map Prod.snd
  | _ => none

/-- The amount that a value is. -/
def amount? : Value → Option UInt64
  | number (.integer n) => if 0 ≤ n then some (UInt64.ofNat n.toNat) else none
  | _ => none

end Value

end TokenLedger.Json
