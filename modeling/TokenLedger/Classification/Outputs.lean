import TokenLedger.Balance
import TokenLedger.Governance
import TokenLedger.Store

/-!
How outputs take their token value. They are gone through in order, and each takes its whole value
as long as the balance covers it; the first one that it does not cover, and every later one, is
native. Outputs with data take nothing and do not end this.

Data that asks for something counts in the last output only; in any other it makes the transaction
invalid.
-/

namespace TokenLedger

/-- The balance after an output that it covers was paid. -/
def Balance.pay (b : Balance) (value : UInt64) (h : b.Covers value) : Balance where
  value := b.value - value.toNat
  fits := by
    obtain ⟨_, upper⟩ := b.fits
    obtain ⟨_, covered⟩ := h
    exact ⟨by omega, by omega⟩

/-- The kind of a transaction after an output with data, and the role of that output. -/
def governed (isLast : Bool) (kind : TxKind) (data : Bytes) : TxKind × OutputRole :=
  match Payload.kindOf? data with
  | none => (kind, .data)
  | some asked =>
    if isLast then
      if kind = .invalid then (.invalid, .data)
      else
        match asked with
        | .compensationRequest => (.compensationRequest, .compensationRequestData)
        | .vote => (.vote, .voteData)
    else (.invalid, .data)

/-- What going through outputs has led to. -/
structure Allocation (σ : Type) where
  /-- Whether the ledger took every token output. -/
  ended : Except StoreError Unit
  outputs : List TxOutput
  kind : TxKind
  balance : Balance
  /-- Whether an output was met that takes no token. -/
  closed : Bool
  store : σ

/-- One more output in front. -/
def Allocation.cons {σ : Type} (o : TxOutput) (a : Allocation σ) : Allocation σ :=
  { a with outputs := o :: a.outputs }

section

variable {σ : Type} [Store σ]

/-- Goes through the outputs of a transaction from a position on. -/
def allocate (txId : String) (height : UInt64) :
    (position : Nat) → List TxOutput → TxKind → Balance → (closed : Bool) → σ → Allocation σ
  | _, [], kind, balance, closed, s =>
    { ended := .ok (), outputs := [], kind, balance, closed, store := s }
  | position, o :: rest, kind, balance, closed, s =>
    match o.data? with
    | some data =>
      let (kind, role) := governed rest.isEmpty kind data
      (allocate txId height (position + 1) rest kind balance closed s).cons
        { o with tokenValue := 0, role }
    | none =>
      if h : closed = false ∧ balance.Covers o.value then
        let paid := { o with tokenValue := o.value, role := .token }
        let balance := balance.pay o.value h.2
        match Store.insert s ⟨txId, UInt32.ofNat position⟩
            { value := o.value, height, role := .token } with
        | (.ok (), s) =>
          (allocate txId height (position + 1) rest kind balance closed s).cons paid
        | (.error e, s) =>
          { ended := .error e, outputs := paid :: rest, kind, balance, closed, store := s }
      else
        (allocate txId height (position + 1) rest kind balance true s).cons
          { o with role := .native }

/-- Where the last output asks for compensation, a native output before it is the one that would be
paid. -/
def markCandidate : List TxOutput → List TxOutput
  | [o, last] =>
    if last.role = .compensationRequestData ∧ o.role = .native then
      [{ o with role := .issuanceCandidate }, last]
    else [o, last]
  | o :: rest => o :: markCandidate rest
  | [] => []

/-- Goes through all outputs of a transaction. -/
def evaluateOutputs (tx : Tx) (height : UInt64) (balance : Balance) (closed : Bool) (s : σ) :
    Allocation σ :=
  let a := allocate tx.id height 0 tx.outputs tx.kind balance closed s
  match a.ended with
  | .ok () => { a with outputs := markCandidate a.outputs }
  | .error _ => a

end

end TokenLedger
