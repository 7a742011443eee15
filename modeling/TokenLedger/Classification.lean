import TokenLedger.Classification.Inputs
import TokenLedger.Classification.Outputs

/-!
What a transaction is. Its inputs bring in a balance, its outputs take from it in order, and what is
left is burnt. A transaction whose inputs bring in nothing is not about tokens at all.
-/

namespace TokenLedger

/-- What classifying a transaction has led to. -/
structure Classified (σ : Type) where
  /-- Whether the transaction carries token, or why it could not be told. -/
  result : Except Rejection Bool
  tx : Tx
  store : σ

/-- The record with what is left of the balance as its fee; a mere transfer becomes a payment. -/
def Tx.settled (tx : Tx) (left : Balance) : Tx :=
  if left.isPositive then
    { tx with
      burntFee := left.amount
      kind := if tx.kind = .transfer then .feePayment else tx.kind }
  else tx

/-- Classifies a transaction of a block at a height. What was done before an error is not undone, so
a block is classified on an overlay. -/
def classify {σ : Type} [Store σ] (height : UInt64) (tx : Tx) (s : σ) : Classified σ :=
  match evaluateInputs tx s with
  | (.error e, s) => { result := .error e, tx, store := s }
  | (.ok inputs, s) =>
    if inputs.balance.isPositive then
      let tx := tx.recognized inputs.values
      let a := evaluateOutputs tx height inputs.balance false s
      let tx := { tx with outputs := a.outputs, kind := a.kind }
      match a.ended with
      | .ok () => { result := .ok true, tx := tx.settled a.balance, store := a.store }
      | .error e => { result := .error (.store e), tx, store := a.store }
    else { result := .ok false, tx, store := s }

end TokenLedger
