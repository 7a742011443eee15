import TokenLedger.Bytes.Utf8
import TokenLedger.OutputRef

/-!
Blocks as the underlying chain supplies them. Headers and signatures are taken on trust; only what
the ledger reads is kept.
-/

namespace TokenLedger

/-- An output on the chain. One that carries data, even none at all, cannot be spent. -/
structure RawOutput where
  value : UInt64
  data? : Option Bytes := none
deriving DecidableEq, Repr

/-- A transaction on the chain, with the outputs that it spends in the order of its inputs. -/
structure RawTx where
  id : String
  inputs : List OutputRef
  outputs : List RawOutput
deriving DecidableEq, Repr

/-- A block of the chain, with its transactions in order. -/
structure RawBlock where
  height : UInt64
  hash : String
  previousHash : String
  txs : List RawTx
deriving DecidableEq, Repr

end TokenLedger
