/-!
Where a ledger begins.
-/

namespace TokenLedger

/-- The transaction that issues the token of a ledger, and the height of its block. -/
structure Genesis where
  txId : String
  height : UInt64
deriving DecidableEq, Repr

end TokenLedger
