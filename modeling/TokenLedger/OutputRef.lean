import TokenLedger.Text.Blank
import TokenLedger.Text.Decimal

/-!
References to outputs: the id of a transaction and the place of one of its outputs. They are the
keys of the ledger, so their order is the order in which every node goes through it.

The text of a reference is the id, a colon and the place in base ten. An id without a colon can be
told apart from the place again; such ids are called well-formed.
-/

namespace TokenLedger

/-- A reference to one output of one transaction. -/
structure OutputRef where
  txId : String
  index : UInt32
deriving DecidableEq, Repr

/-- Why a text is no reference, or an id cannot be part of one. -/
inductive RefError where
  /-- There is no colon, or more than one. -/
  | missingSeparator (text : String)
  | emptyTxId (text : String)
  /-- The part after the colon is no number of thirty-two bits. -/
  | invalidIndex (text : String)
  | separatorInTxId (txId : String)
deriving DecidableEq, Repr

/-- The wording of an error. -/
def RefError.message : RefError → String
  | .missingSeparator s => s!"Format error: expected exactly one ':' in '{s}'"
  | .emptyTxId s => s!"Format error: empty tx id in '{s}'"
  | .invalidIndex s => s!"Format error: invalid output index in '{s}'"
  | .separatorInTxId s => s!"Format error: tx id '{s}' contains ':'"

/-- Whether an id can be part of a reference: it is not empty and has no colon. -/
def WellFormedId (txId : String) : Prop := txId.toList ≠ [] ∧ ':' ∉ txId.toList

instance (txId : String) : Decidable (WellFormedId txId) := inferInstanceAs (Decidable (_ ∧ _))

/-- Checks that an id is well-formed. -/
def checkTxId (txId : String) : Except RefError Unit :=
  if txId.toList = [] then .error (.emptyTxId txId)
  else if ':' ∈ txId.toList then .error (.separatorInTxId txId)
  else .ok ()

theorem checkTxId_eq_ok_iff {txId : String} : checkTxId txId = .ok () ↔ WellFormedId txId := by
  unfold checkTxId WellFormedId
  split
  · simp_all
  · split <;> simp_all

namespace OutputRef

/-- References are ordered by id, then by place. -/
instance : Ord OutputRef := ⟨compareLex (compareOn txId) (compareOn index)⟩

instance : Std.TransOrd OutputRef :=
  inferInstanceAs (Std.TransCmp (compareLex (compareOn txId) (compareOn index)))

instance : Std.LawfulEqOrd OutputRef where
  compare_self := by
    intro a
    have reflexive : Std.ReflCmp (compareLex (compareOn txId) (compareOn index)) := inferInstance
    exact reflexive.compare_self
  eq_of_compare := by
    intro a b h
    have both := compareLex_eq_eq.1 h
    obtain ⟨ids, places⟩ := both
    have ids : a.txId = b.txId := Std.LawfulEqOrd.eq_of_compare ids
    have places : a.index = b.index := Std.LawfulEqOrd.eq_of_compare places
    cases a; cases b; simp_all

/-- The reference with a well-formed id. -/
def make (txId : String) (index : UInt32) : Except RefError OutputRef :=
  match checkTxId txId with
  | .ok () => .ok ⟨txId, index⟩
  | .error e => .error e

/-- The characters of a reference: id, colon, place. -/
def chars (r : OutputRef) : List Char := r.txId.toList ++ ':' :: Decimal.digits r.index.toNat

/-- The text of a reference. -/
def text (r : OutputRef) : String := String.ofList r.chars

/-- The place that digits stand for, if a word of thirty-two bits holds it. -/
def readIndex? (cs : List Char) : Option UInt32 :=
  match Decimal.ofDigits? cs with
  | some n => if n < UInt32.size then some (UInt32.ofNat n) else none
  | none => none

/-- Reads the text of a reference. -/
def parse (s : String) : Except RefError OutputRef :=
  match Text.fields ':' s.toList with
  | [txId, place] =>
    if txId = [] then .error (.emptyTxId s)
    else
      match readIndex? place with
      | some index => .ok ⟨String.ofList txId, index⟩
      | none => .error (.invalidIndex s)
  | _ => .error (.missingSeparator s)

end OutputRef

end TokenLedger
