import TokenLedger.Classification
import TokenLedger.Genesis
import TokenLedger.Store.Overlay

/-!
Derived blocks. The transactions of a block are gone through in order on an overlay, so later ones
see what earlier ones did, and the ledger itself stays as it is. The first issue of token is the one
transaction that is taken on its word.
-/

namespace TokenLedger

/-- An output of the issue: its whole value is token, unless it has none or carries data. -/
def TxOutput.issued (o : TxOutput) : TxOutput :=
  if o.carriesData then { o with role := .data }
  else if o.value = 0 then { o with role := .native }
  else { o with tokenValue := o.value, role := .token }

/-- The record of the issue. -/
def Tx.issued (tx : Tx) : Tx :=
  { tx with kind := .genesis, outputs := tx.outputs.map TxOutput.issued }

/-- The entries that the token outputs of a record make at a height. -/
def Tx.entries (tx : Tx) (height : UInt64) : List (OutputRef × Utxo) :=
  (tx.outputs.mapIdx fun position o => (tx.outputRef (UInt32.ofNat position), o)).filterMap
    fun (r, o) =>
      if o.role = .token then some (r, { value := o.tokenValue, height, role := .token }) else none

/-- Whether a transaction of a block is the issue of the token. -/
def Genesis.IsIssue (g : Genesis) (height : UInt64) (raw : RawTx) : Prop :=
  height = g.height ∧ raw.id = g.txId

instance (g : Genesis) (height : UInt64) (raw : RawTx) : Decidable (g.IsIssue height raw) :=
  inferInstanceAs (Decidable (_ ∧ _))

section

variable {σ : Type} [Store σ]

/-- Puts entries into a ledger one after the other. -/
def insertAll (s : σ) : List (OutputRef × Utxo) → Except StoreError Unit × σ
  | [] => (.ok (), s)
  | (r, entry) :: rest =>
    match Store.insert s r entry with
    | (.ok (), s) => insertAll s rest
    | (.error e, s) => (.error e, s)

/-- Derives the record of a transaction, if it is about token. What was done before an error is not
undone. -/
def deriveTx (g : Genesis) (height : UInt64) (raw : RawTx) (s : σ) :
    Except Rejection (Option Tx) × σ :=
  let tx := Tx.ofRaw raw height
  if g.IsIssue height raw then
    match insertAll s (tx.issued.entries height) with
    | (.ok (), s) => (.ok (some tx.issued), s)
    | (.error e, s) => (.error (.store e), s)
  else
    let c := classify height tx s
    match c.result with
    | .ok true => (.ok (some c.tx), c.store)
    | .ok false => (.ok none, c.store)
    | .error e => (.error e, c.store)

/-- Derives the records of transactions in order, up to the first that is refused. -/
def deriveTxs (g : Genesis) (height : UInt64) : List RawTx → σ → Except Rejection (List Tx) × σ
  | [], s => (.ok [], s)
  | raw :: rest, s =>
    match deriveTx g height raw s with
    | (.error e, s) => (.error e, s)
    | (.ok tx?, s) =>
      match deriveTxs g height rest s with
      | (.error e, s) => (.error e, s)
      | (.ok txs, s) => (.ok (tx?.toList ++ txs), s)

/-- Derives a block on top of a store, and the changes that it makes there. They are held back, and
with an error they are forgotten. -/
def deriveBlock (g : Genesis) (raw : RawBlock) (s : σ) :
    Except Rejection (Block × List Change) × σ :=
  match deriveTxs g raw.height raw.txs ({ base := s } : Overlay σ) with
  | (.error e, o) => (.error e, o.base)
  | (.ok txs, o) =>
    (.ok ({ height := raw.height, hash := raw.hash, previousHash := raw.previousHash, txs },
      o.changes), o.base)

end

/-- Checks that the ids of transactions are well-formed and occur once. -/
def checkTxIds (height : UInt64) : (seen : List String) → List RawTx → Except Rejection Unit
  | _, [] => .ok ()
  | seen, raw :: rest =>
    if ¬ WellFormedId raw.id then .error (.malformedTxId height raw.id)
    else if raw.id ∈ seen then .error (.duplicateTx height raw.id)
    else checkTxIds height (raw.id :: seen) rest

/-- How a claimed block differs from the derived one, if it does. -/
def divergence? (derived claimed : Block) : Option Divergence :=
  if derived = claimed then none
  else if derived.hash ≠ claimed.hash then some (.hash claimed.hash derived.hash)
  else if derived.txs.length ≠ claimed.txs.length then
    some (.txCount claimed.txs.length derived.txs.length)
  else
    match (derived.txs.zip claimed.txs).find? fun e => e.1 ≠ e.2 with
    | some (d, c) => some (.tx c d)
    | none => some .header

end TokenLedger
