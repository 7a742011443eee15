import TokenLedger.Amount
import TokenLedger.RawBlock

/-!
What the ledger records: transactions with the token value of their inputs and outputs, and derived
blocks, which hold the token transactions of a block of the chain. What was derived can be taken off
again (`Tx.toRaw`, `Block.toRaw`), so that a record from elsewhere can be derived anew.
-/

namespace TokenLedger

/-- The kinds of transactions. Every record starts out unverified. -/
inductive TxKind where
  | unverified
  | invalid
  | genesis
  | transfer
  | feePayment
  | compensationRequest
  | vote
deriving DecidableEq, Repr, Inhabited

namespace TxKind

/-- The kinds in the order of their numbers. -/
def all : List TxKind :=
  [unverified, invalid, genesis, transfer, feePayment, compensationRequest, vote]

/-- The name of a kind in stored forms. -/
def name : TxKind → String
  | unverified => "Unverified"
  | invalid => "Invalid"
  | genesis => "Genesis"
  | transfer => "TransferBsq"
  | feePayment => "PayTradeFee"
  | compensationRequest => "CompensationRequest"
  | vote => "Vote"

/-- A kind as it is shown. -/
def text : TxKind → String
  | unverified => "UNVERIFIED"
  | invalid => "INVALID"
  | genesis => "GENESIS"
  | transfer => "TRANSFER_BSQ"
  | feePayment => "PAY_TRADE_FEE"
  | compensationRequest => "COMPENSATION_REQUEST"
  | vote => "VOTE"

end TxKind

/-- What an output turned out to be. -/
inductive OutputRole where
  | undefined
  | token
  | native
  | data
  | compensationRequestData
  | issuanceCandidate
  | voteData
deriving DecidableEq, Repr, Inhabited

namespace OutputRole

/-- The roles in the order of their numbers. -/
def all : List OutputRole :=
  [undefined, token, native, data, compensationRequestData, issuanceCandidate, voteData]

/-- The name of a role in stored forms. -/
def name : OutputRole → String
  | undefined => "Undefined"
  | token => "BsqOutput"
  | native => "BtcOutput"
  | data => "OpReturnOutput"
  | compensationRequestData => "CompensationRequestOpReturnOutput"
  | issuanceCandidate => "IssuanceCandidateOutput"
  | voteData => "VoteOpReturnOutput"

end OutputRole

/-- An input, with the token value that was found behind it. -/
structure TxInput where
  ref : OutputRef
  tokenValue? : Option UInt64 := none
deriving DecidableEq, Repr

/-- An output, with the token value that it was assigned. -/
structure TxOutput where
  index : UInt32
  value : UInt64
  data? : Option Bytes := none
  tokenValue : UInt64 := 0
  role : OutputRole := .undefined
deriving DecidableEq, Repr

/-- Whether an output carries data and cannot be spent. -/
def TxOutput.carriesData (o : TxOutput) : Bool := o.data?.isSome

/-- The output of the chain behind a recorded one. -/
def TxOutput.toRaw (o : TxOutput) : RawOutput := { value := o.value, data? := o.data? }

/-- The record of a transaction. -/
structure Tx where
  id : String
  height : UInt64
  inputs : List TxInput
  outputs : List TxOutput
  kind : TxKind := .unverified
  /-- The token value that no output took. -/
  burntFee : UInt64 := 0
deriving DecidableEq, Repr

namespace Tx

/-- The unverified record of a transaction of the chain. -/
def ofRaw (raw : RawTx) (height : UInt64) : Tx where
  id := raw.id
  height := height
  inputs := raw.inputs.map fun ref => { ref := ref }
  outputs := raw.outputs.mapIdx fun i o =>
    { index := UInt32.ofNat i, value := o.value, data? := o.data? }

/-- The transaction of the chain behind a record. -/
def toRaw (tx : Tx) : RawTx where
  id := tx.id
  inputs := tx.inputs.map TxInput.ref
  outputs := tx.outputs.map TxOutput.toRaw

/-- The reference to one of the outputs. -/
def outputRef (tx : Tx) (index : UInt32) : OutputRef := ⟨tx.id, index⟩

/-- The token value of all outputs together. -/
def totalTokenOutput (tx : Tx) : Except Overflow UInt64 :=
  Amount.sum (tx.outputs.map TxOutput.tokenValue)

end Tx

/-- A derived block: the header of a block of the chain and the token transactions in it. -/
structure Block where
  height : UInt64
  hash : String
  previousHash : String
  txs : List Tx
deriving DecidableEq, Repr

namespace Block

/-- The block of the chain behind a derived block, less what is not about tokens. -/
def toRaw (b : Block) : RawBlock where
  height := b.height
  hash := b.hash
  previousHash := b.previousHash
  txs := b.txs.map Tx.toRaw

/-- The token value burnt in the block. -/
def totalBurntFee (b : Block) : Except Overflow UInt64 := Amount.sum (b.txs.map Tx.burntFee)

end Block

theorem toRaw_ofRaw (raw : RawTx) (height : UInt64) : (Tx.ofRaw raw height).toRaw = raw := by
  have outputs : (Tx.ofRaw raw height).outputs.map TxOutput.toRaw = raw.outputs := by
    apply List.ext_getElem <;> simp [Tx.ofRaw, TxOutput.toRaw]
  cases raw
  simp only [Tx.toRaw, outputs]
  simp [Tx.ofRaw, Function.comp_def]

end TokenLedger
