import TokenLedger.Bytes.Hex
import TokenLedger.Hash.Ripemd160
import TokenLedger.Hash.Sha256

/-!
The digests that the ledger is built on: the doubled digest that names a transaction, and the short
one that stands for the content of a governance payload.
-/

namespace TokenLedger.Hash

/-- The digest that blocks and transactions are known by. -/
def doubled (bytes : Bytes) : Bytes := Sha256.digest (Sha256.digest bytes)

/-- The twenty bytes that stand for a content; the long digest goes first, so that the short one
never sees the content itself. -/
def content (bytes : Bytes) : Bytes := Ripemd160.digest (Sha256.digest bytes)

/-- The id of a serialized transaction as it is shown: its doubled digest backwards. -/
def transactionId (serialized : Bytes) : String := Hex.encode (doubled serialized).reverse

@[simp] theorem length_content (bytes : Bytes) : (content bytes).length = 20 := by
  simp [content]

end TokenLedger.Hash
