import TokenLedger.Json.Records
import TokenLedger.Wire.Records

/-!
The messages by which nodes get blocks from one another: a request for all blocks from a height on,
and the response to it. A response is never cut into pieces, so it may be larger than messages
usually are. On the way a message travels behind the version of its format.
-/

namespace TokenLedger

namespace Sync

/-- Asks for all blocks from a height on. -/
structure Request where
  fromHeight : UInt64
  /-- The number by which the response will be known. -/
  nonce : Int32
deriving DecidableEq, Repr

/-- Answers a request: the blocks by ascending height. -/
structure Response where
  blocks : List Block
  /-- The number of the request. -/
  nonce : Int32
deriving DecidableEq, Repr

/-- A message between nodes. -/
inductive Message where
  | request (r : Request)
  | response (r : Response)
deriving DecidableEq, Repr

/-- Whether a message may be larger than usual. -/
def Message.isExtended : Message → Bool
  | request _ => false
  | response _ => true

/-- The version of the format that is spoken here. -/
def messageVersion : UInt32 := 1

/-- A message behind the version of its format. -/
structure Envelope where
  version : UInt32 := messageVersion
  message : Message
deriving DecidableEq, Repr

end Sync

open Sync

namespace Wire.Codec

def request : Codec Request := (word64.pair int32).imap
  (fun (fromHeight, nonce) => { fromHeight, nonce }) (fun r => (r.fromHeight, r.nonce))

def response : Codec Response := ((list block).pair int32).imap
  (fun (blocks, nonce) => { blocks, nonce }) (fun r => (r.blocks, r.nonce))

def message : Codec Message := (either request response).imap
  (fun
    | .inl r => .request r
    | .inr r => .response r)
  (fun
    | .request r => .inl r
    | .response r => .inr r)

end Wire.Codec

namespace Json.Form

def request : Form Request :=
  (((Members.one "from_block_height" word64).and (.one "nonce" int32)).record
    "struct GetBsqBlocksRequest").imap
    (fun (fromHeight, nonce) => { fromHeight, nonce }) (fun r => (r.fromHeight, r.nonce))

def response : Form Response :=
  (((Members.one "bsq_blocks" (list block)).and (.one "request_nonce" int32)).record
    "struct GetBsqBlocksResponse").imap
    (fun (blocks, nonce) => { blocks, nonce }) (fun r => (r.blocks, r.nonce))

def message : Form Message := tagged
  [("GetBsqBlocksRequest", fun cs => do
      let (r, rest) ← request.read cs
      return (.request r, rest)),
    ("GetBsqBlocksResponse", fun cs => do
      let (r, rest) ← response.read cs
      return (.response r, rest))]
  (fun
    | .request r => ("GetBsqBlocksRequest", request.write r)
    | .response r => ("GetBsqBlocksResponse", response.write r))

end Json.Form

namespace Sync.Envelope

/-- An envelope as it travels. -/
def bytes (e : Envelope) : Bytes := Wire.encodeVersioned Wire.Codec.message e.version e.message

/-- Opens an envelope of the version that is spoken here. -/
def ofBytes (bytes : Bytes) : Except Wire.Error Envelope := do
  let message ← Wire.decodeVersioned Wire.Codec.message messageVersion bytes
  return { message }

end Sync.Envelope

end TokenLedger
