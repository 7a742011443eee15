import TokenLedger.Json.Form
import TokenLedger.Unspent

/-!
The JSON forms of what the ledger reads and keeps. Blocks of the chain are loaded from files in this
form, so the ids in them are checked here; records were derived before they were written.
-/

namespace TokenLedger.Json.Form

/-- An id that can be part of a reference. -/
def txId : Form String := string.refine
  (fun s =>
    match checkTxId s with
    | .ok () => .ok s
    | .error e => .error (.notReference e))
  id

def rawOutput : Form RawOutput :=
  (((Members.one "value" word64).and (.one "op_return_data" (option hex) (some none))).record
    "struct RawTxOutput").imap
    (fun (value, data?) => { value, data? }) (fun o => (o.value, o.data?))

def rawTx : Form RawTx :=
  (((Members.one "id" txId).and ((Members.one "inputs" (list reference)).and
    (.one "outputs" (list rawOutput)))).record "struct RawTx").imap
    (fun (id, inputs, outputs) => { id, inputs, outputs })
    (fun t => (t.id, t.inputs, t.outputs))

def rawBlock : Form RawBlock :=
  (((Members.one "height" word64).and ((Members.one "hash" string).and
    ((Members.one "previous_block_hash" string).and (.one "txs" (list rawTx))))).record
    "struct RawBlock").imap
    (fun (height, hash, previousHash, txs) => { height, hash, previousHash, txs })
    (fun b => (b.height, b.hash, b.previousHash, b.txs))

/-- A file of blocks of the chain. -/
def rawBlocks : Form (List RawBlock) := list rawBlock

def txKind : Form TxKind := variant TxKind.all TxKind.name

def outputRole : Form OutputRole := variant OutputRole.all OutputRole.name

def txInput : Form TxInput :=
  (((Members.one "output_ref" reference).and (.one "bsq_value" (option word64) (some none))).record
    "struct TxInput").imap
    (fun (ref, tokenValue?) => { ref, tokenValue? }) (fun i => (i.ref, i.tokenValue?))

def txOutput : Form TxOutput :=
  (((Members.one "index" word32).and ((Members.one "value" word64).and
    ((Members.one "op_return_data" (option (list word8)) (some none)).and
      ((Members.one "bsq_value" word64 (some 0)).and
        (.one "output_type" outputRole (some .undefined)))))).record "struct TxOutput").imap
    (fun (index, value, data?, tokenValue, role) => { index, value, data?, tokenValue, role })
    (fun o => (o.index, o.value, o.data?, o.tokenValue, o.role))

def tx : Form Tx :=
  (((Members.one "id" string).and ((Members.one "block_height" word64).and
    ((Members.one "inputs" (list txInput)).and ((Members.one "outputs" (list txOutput)).and
      ((Members.one "tx_type" txKind (some .unverified)).and
        (.one "burnt_fee" word64 (some 0))))))).record "struct Tx").imap
    (fun (id, height, inputs, outputs, kind, burntFee) =>
      { id, height, inputs, outputs, kind, burntFee })
    (fun t => (t.id, t.height, t.inputs, t.outputs, t.kind, t.burntFee))

def block : Form Block :=
  (((Members.one "height" word64).and ((Members.one "hash" string).and
    ((Members.one "previous_block_hash" string).and (.one "txs" (list tx))))).record
    "struct BsqBlock").imap
    (fun (height, hash, previousHash, txs) => { height, hash, previousHash, txs })
    (fun b => (b.height, b.hash, b.previousHash, b.txs))

def utxo : Form Utxo :=
  (((Members.one "value" word64).and ((Members.one "height" word64).and
    (.one "output_type" outputRole))).record "struct BsqUtxo").imap
    (fun (value, height, role) => { value, height, role })
    (fun u => (u.value, u.height, u.role))

/-- The unspent outputs, keyed by the texts of their references. -/
def unspentSet : Form UnspentSet :=
  (Members.one "entries" (map OutputRef.text
    (fun s =>
      match OutputRef.parse s with
      | .ok r => .ok r
      | .error e => .error (.notReference e))
    utxo)).record "struct UtxoSet"

end TokenLedger.Json.Form
