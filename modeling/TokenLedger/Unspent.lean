import TokenLedger.Bytes.Word
import TokenLedger.Hash.Content
import TokenLedger.Record
import TokenLedger.SortedMap

/-!
The unspent token outputs: a map from references to what is left there. It is kept in the order of
the references, so that whatever is computed by going through it, like the digest by which two nodes
compare their ledgers, is the same on every node.
-/

namespace TokenLedger

/-- An unspent output that bears token. -/
structure Utxo where
  value : UInt64
  /-- The height of the block that made the output. -/
  height : UInt64
  role : OutputRole
deriving DecidableEq, Repr

/-- A new entry under a reference, or the end of the old one. -/
abbrev Change := OutputRef × Option Utxo

/-- The unspent token outputs. -/
abbrev UnspentSet := SortedMap OutputRef Utxo

namespace UnspentSet

/-- The token value of all entries together; it may exceed any word. -/
def totalValue (u : UnspentSet) : Nat := Amount.total (u.toList.map fun e => e.2.value)

/-- What an entry contributes to the digest: its reference, its value and its height. -/
def entryBytes (e : OutputRef × Utxo) : Bytes :=
  Utf8.encode e.1.text ++ Word.littleEndian 8 e.2.value.toNat
    ++ Word.littleEndian 8 e.2.height.toNat

/-- The bytes that the digest is taken of. -/
def preimage (u : UnspentSet) : Bytes := u.toList.flatMap entryBytes

/-- The digest by which ledgers are compared. -/
def root (u : UnspentSet) : String := Hex.encode (Sha256.digest u.preimage)

end UnspentSet

end TokenLedger
