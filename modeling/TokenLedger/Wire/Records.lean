import TokenLedger.Unspent
import TokenLedger.Wire.Envelope

/-!
The binary forms of records, field by field. Nothing is left out and nothing is assumed.
-/

namespace TokenLedger.Wire.Codec

def txKind : Codec TxKind := variant TxKind.all

def outputRole : Codec OutputRole := variant OutputRole.all

/-- Data is a list of bytes. -/
def data : Codec Bytes := list word8

def txInput : Codec TxInput := (reference.pair (option word64)).imap
  (fun (ref, tokenValue?) => { ref, tokenValue? })
  (fun i => (i.ref, i.tokenValue?))

def txOutput : Codec TxOutput :=
  (word32.pair (word64.pair ((option data).pair (word64.pair outputRole)))).imap
  (fun (index, value, data?, tokenValue, role) => { index, value, data?, tokenValue, role })
  (fun o => (o.index, o.value, o.data?, o.tokenValue, o.role))

def tx : Codec Tx :=
  (text.pair (word64.pair ((list txInput).pair ((list txOutput).pair (txKind.pair word64))))).imap
    (fun (id, height, inputs, outputs, kind, burntFee) =>
      { id, height, inputs, outputs, kind, burntFee })
    (fun t => (t.id, t.height, t.inputs, t.outputs, t.kind, t.burntFee))

def block : Codec Block := (word64.pair (text.pair (text.pair (list tx)))).imap
  (fun (height, hash, previousHash, txs) => { height, hash, previousHash, txs })
  (fun b => (b.height, b.hash, b.previousHash, b.txs))

def utxo : Codec Utxo := (word64.pair (word64.pair outputRole)).imap
  (fun (value, height, role) => { value, height, role })
  (fun u => (u.value, u.height, u.role))

end TokenLedger.Wire.Codec

namespace TokenLedger

/-- The stored form of a reference. -/
def OutputRef.bytes (r : OutputRef) : Bytes :=
  Wire.encodeVersioned Wire.Codec.reference Wire.recordVersion r

def OutputRef.ofBytes (bytes : Bytes) : Except Wire.Error OutputRef :=
  Wire.decodeVersioned Wire.Codec.reference Wire.recordVersion bytes

/-- The stored form of a transaction. -/
def Tx.bytes (t : Tx) : Bytes := Wire.encodeVersioned Wire.Codec.tx Wire.recordVersion t

def Tx.ofBytes (bytes : Bytes) : Except Wire.Error Tx :=
  Wire.decodeVersioned Wire.Codec.tx Wire.recordVersion bytes

/-- The stored form of a block. -/
def Block.bytes (b : Block) : Bytes := Wire.encodeVersioned Wire.Codec.block Wire.recordVersion b

def Block.ofBytes (bytes : Bytes) : Except Wire.Error Block :=
  Wire.decodeVersioned Wire.Codec.block Wire.recordVersion bytes

/-- The stored form of an unspent entry. -/
def Utxo.bytes (u : Utxo) : Bytes := Wire.encodeVersioned Wire.Codec.utxo Wire.recordVersion u

def Utxo.ofBytes (bytes : Bytes) : Except Wire.Error Utxo :=
  Wire.decodeVersioned Wire.Codec.utxo Wire.recordVersion bytes

end TokenLedger
