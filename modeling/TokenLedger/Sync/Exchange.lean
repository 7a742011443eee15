import TokenLedger.Sync.Message

/-!
Both ends of an exchange. Whoever answers sends every block from the height on that was asked for;
whoever asked checks that the heights ascend from there, and that the response is the one that was
waited for.
-/

namespace TokenLedger.Sync

/-- Why a message is of no use. -/
inductive SyncError where
  | wire (e : Wire.Error)
  /-- The message is not of the kind that was expected. -/
  | unexpectedMessage (expected : String)
  | unknownNonce (nonce : Int32)
  | nonceMismatch (expected found : Int32)
  | outOfOrder (height : UInt64)
deriving DecidableEq, Repr

/-- The wording of an error after its opening words. -/
def SyncError.detail : SyncError → String
  | wire e => e.message
  | unexpectedMessage expected => s!"expected {expected}"
  | unknownNonce nonce => s!"no outstanding request with nonce {nonce}"
  | nonceMismatch expected found =>
    s!"response nonce {found} does not match request nonce {expected}"
  | outOfOrder height => s!"block {height} out of order in response"

/-- The wording of an error. -/
def SyncError.message (e : SyncError) : String :=
  let detail := e.detail
  s!"Sync error: {detail}"

/-- Checks that the heights of blocks ascend from above a height. -/
def checkAbove (height : UInt64) : List Block → Except SyncError Unit
  | [] => .ok ()
  | b :: rest =>
    if b.height ≤ height then .error (.outOfOrder b.height) else checkAbove b.height rest

/-- Checks that the heights of blocks ascend, from a height on. -/
def checkAscending (height : UInt64) : List Block → Except SyncError Unit
  | [] => .ok ()
  | b :: rest =>
    if b.height < height then .error (.outOfOrder b.height) else checkAbove b.height rest

/-- Checks that a response answers a request. -/
def matchResponse (request : Request) (response : Response) : Except SyncError Unit :=
  if request.nonce ≠ response.nonce then
    .error (.nonceMismatch request.nonce response.nonce)
  else checkAscending request.fromHeight response.blocks

/-- Answers a request from the blocks at hand. -/
def serve (request : Request) (blocks : List Block) : Response where
  blocks := (blocks.filter fun b => request.fromHeight ≤ b.height).mergeSort
    fun a b => a.height ≤ b.height
  nonce := request.nonce

/-- Opens an envelope. -/
def openEnvelope (bytes : Bytes) : Except SyncError Message :=
  match Envelope.ofBytes bytes with
  | .ok e => .ok e.message
  | .error e => .error (.wire e)

/-- The request in an envelope. -/
def decodeRequest (bytes : Bytes) : Except SyncError Request := do
  match ← openEnvelope bytes with
  | .request r => return r
  | .response _ => .error (.unexpectedMessage "GetBsqBlocksRequest")

/-- The response in an envelope. -/
def decodeResponse (bytes : Bytes) : Except SyncError Response := do
  match ← openEnvelope bytes with
  | .response r => return r
  | .request _ => .error (.unexpectedMessage "GetBsqBlocksResponse")

end TokenLedger.Sync
