import TokenLedger.Balance
import TokenLedger.Rejection

/-!
What the inputs of a transaction bring in. Every reference is looked up before anything is spent, so
a sum that does not fit leaves the ledger as it was. A reference that is listed twice counts once,
and one that is not known brings nothing.
-/

namespace TokenLedger

/-- The token values found behind references, in their order, and the sum of them. -/
structure Recognition where
  values : List (Option UInt64)
  total : UInt64
deriving DecidableEq, Repr

namespace Recognition

/-- One more reference in front, with what was found behind it. -/
def cons (value? : Option UInt64) (r : Recognition) : Recognition :=
  { r with values := value? :: r.values }

end Recognition

section

variable {σ : Type} [Store σ]

/-- Looks references up and adds their values to a sum, less those that were seen before. -/
def recognizeFrom (s : σ) (txId : String) (seen : List OutputRef) (total : UInt64) :
    List OutputRef → Except Rejection Recognition
  | [] => .ok ⟨[], total⟩
  | r :: rest =>
    if r ∈ seen then do return (← recognizeFrom s txId seen total rest).cons none
    else
      match Store.find? s r with
      | .error e => .error (.store e)
      | .ok none => do return (← recognizeFrom s txId (r :: seen) total rest).cons none
      | .ok (some entry) =>
        match Amount.add? total entry.value with
        | none => .error (.balanceOverflow txId)
        | some total => do
          return (← recognizeFrom s txId (r :: seen) total rest).cons (some entry.value)

/-- Looks the references of a transaction up. -/
def recognize (s : σ) (txId : String) (refs : List OutputRef) : Except Rejection Recognition :=
  recognizeFrom s txId [] 0 refs

/-- The references that were recognized, in order. -/
def recognizedRefs (refs : List OutputRef) (values : List (Option UInt64)) : List OutputRef :=
  ((refs.zip values).filter fun e => e.2.isSome).map Prod.fst

/-- Takes entries out of the ledger one after the other. -/
def spend (s : σ) : List OutputRef → Except StoreError Unit × σ
  | [] => (.ok (), s)
  | r :: rest =>
    match Store.remove s r with
    | (.ok _, s) => spend s rest
    | (.error e, s) => (.error e, s)

/-- What the inputs of a transaction bring in. -/
structure InputEvaluation where
  balance : Balance
  /-- The token value recognized for each input. -/
  values : List (Option UInt64)

/-- Takes what was recognized out of the ledger, if its sum is one that a balance holds. -/
def spendRecognized (txId : String) (refs : List OutputRef) (values : List (Option UInt64))
    (balance? : Option Balance) (s : σ) : Except Rejection InputEvaluation × σ :=
  match balance? with
  | none => (.error (.balanceOverflow txId), s)
  | some balance =>
    match spend s (recognizedRefs refs values) with
    | (.ok (), s) => (.ok ⟨balance, values⟩, s)
    | (.error e, s) => (.error (.store e), s)

/-- Looks up what a transaction spends and takes it out of the ledger. -/
def evaluateInputs (tx : Tx) (s : σ) : Except Rejection InputEvaluation × σ :=
  let refs := tx.inputs.map TxInput.ref
  match recognize s tx.id refs with
  | .error e => (.error e, s)
  | .ok found => spendRecognized tx.id refs found.values (Balance.ofInt? found.total.toNat) s

end

/-- An input with the value that was recognized for it. -/
def TxInput.recognized (i : TxInput) (value? : Option UInt64) : TxInput :=
  match value? with
  | some v => { i with tokenValue? := some v }
  | none => i

/-- The record with the values of its inputs; one that was unverified is now a transfer. -/
def Tx.recognized (tx : Tx) (values : List (Option UInt64)) : Tx :=
  { tx with
    inputs := List.zipWith TxInput.recognized tx.inputs values
    kind := if tx.kind = .unverified then .transfer else tx.kind }

end TokenLedger
