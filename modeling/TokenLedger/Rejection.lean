import TokenLedger.Store

/-!
Why a block is not applied. Each cause stops the whole block: nothing of it reaches the ledger.
-/

namespace TokenLedger

/-- How a block from elsewhere differs from what was derived here. -/
inductive Divergence where
  /-- The block of the chain lies at another height. -/
  | height (chain : UInt64)
  | hash (claimed derived : String)
  | txCount (claimed derived : Nat)
  | tx (claimed derived : Tx)
  | header
deriving DecidableEq, Repr

/-- The wording of a difference. -/
def Divergence.reason : Divergence → String
  | height chain => s!"chain block at height {chain}"
  | hash claimed derived => s!"hash {claimed} != {derived}"
  | txCount claimed derived => s!"{claimed} BSQ txs, derived {derived}"
  | tx claimed derived =>
    let id := claimed.id
    let kind := claimed.kind.text
    let burnt := claimed.burntFee
    let derivedKind := derived.kind.text
    let derivedBurnt := derived.burntFee
    s!"tx {id}: type {kind} burnt {burnt}, derived type {derivedKind} burnt {derivedBurnt}"
  | header => "header mismatch"

/-- Why a block is not applied. -/
inductive Rejection where
  | heightMismatch (expected found : UInt64)
  /-- The block does not name the head as the one before it. -/
  | previousHashMismatch (height : UInt64) (expected found : String)
  | duplicateTx (height : UInt64) (txId : String)
  | malformedTxId (height : UInt64) (txId : String)
  /-- The inputs of a transaction bring in more than a balance can hold. -/
  | balanceOverflow (txId : String)
  | divergence (height : UInt64) (d : Divergence)
  | store (e : StoreError)
deriving DecidableEq, Repr

/-- The wording of a rejection after its opening words. -/
def Rejection.detail : Rejection → String
  | heightMismatch expected found => s!"expected block {expected}, got {found}"
  | previousHashMismatch height expected found =>
    s!"block {height} previous hash {found} does not match head {expected}"
  | duplicateTx height txId => s!"tx {txId} appears twice in block {height}"
  | malformedTxId height txId => s!"block {height} has malformed tx id '{txId}'"
  | balanceOverflow txId => s!"input balance overflow in tx {txId}"
  | divergence height d =>
    let reason := d.reason
    s!"peer block {height} diverges from local derivation ({reason})"
  | store e => e.message

/-- The wording of a rejection. -/
def Rejection.message (r : Rejection) : String :=
  let detail := r.detail
  s!"Consensus abort: {detail}"

end TokenLedger
