import TokenLedger.Chain.Replay
import TokenLedger.Command.Arguments
import TokenLedger.Command.Failure
import TokenLedger.Config.Stored
import TokenLedger.Fee.Client
import TokenLedger.Json.Records
import TokenLedger.Sync.Tracker
import TokenLedger.Text.Blank

/-!
The commands of a node. Whatever a command needs of the machine that it runs on, it asks of a host:
files, the ledger as it was left, lines to be shown, and the fee providers. A command that changes
the ledger leaves every block there that it applied, also if it fails at a later one.
-/

namespace TokenLedger

/-- The machine that a node runs on. -/
structure Host (m : Type → Type) where
  /-- The variables of the environment. -/
  environment : String → Option String
  fileText? : String → m (Option String)
  openLedger : Config → m (Except OpenFault Database)
  saveLedger : Config → Database → m Unit
  /-- Shows a line of the result. -/
  print : String → m Unit
  /-- Shows a line about what goes wrong. -/
  complain : String → m Unit
  /-- Asks a provider for the fee of a transaction. -/
  ask : Fee.Provider → String → m (Except Fee.ProviderError UInt64)
  /-- Waits this many milliseconds. -/
  wait : Nat → m Unit

namespace Host

/-- The name and the version of the program. -/
def versionLine : String := "bsq-node 0.6.0"

variable {m : Type → Type} [Monad m]

/-- Goes on with a value, or fails with the cause why there is none. -/
def orFail {ε α : Type} (failure : ε → Failure) : Except ε α → ExceptT Failure m α
  | .ok a => pure a
  | .error e => throw (failure e)

/-- Reads a file that has to be there. -/
def require (host : Host m) (path : String) : ExceptT Failure m String := do
  match ← host.fileText? path with
  | some s => return s
  | none => throw .unreadable

/-- The settings: from the file, if one is named, or else from the environment. -/
def loadConfig (host : Host m) (file? : Option String) : ExceptT Failure m Config := do
  let config ←
    match file? with
    | some path => do
      match Config.ofToml? (← host.require path) with
      | some config => pure config
      | none => throw .badToml
    | none => orFail .environment (Config.ofEnvironment host.environment)
  orFail .config config.validate
  return config

/-- Opens the ledger with the blocks that led to it. -/
def openChain (host : Host m) (config : Config) : ExceptT Failure m (Chain Database) := do
  let db ← orFail .notOpened (← host.openLedger config)
  orFail .store (Chain.resume config.genesis db)

/-- Applies the blocks in a file. -/
def replay (host : Host m) (config : Config) (path : String) : ExceptT Failure m Unit := do
  let blocks ← orFail .badJson (Json.Form.rawBlocks.ofText (← host.require path))
  let chain ← host.openChain config
  host.print s!"ℹ Replaying {blocks.length} raw blocks..."
  let (result, chain) := chain.replay blocks
  host.saveLedger config chain.store
  let applied ← orFail (fun e => Failure.ofStop .rejected e.2) result
  let stats ← orFail .halted chain.stats
  host.print s!"✓ Applied {applied} blocks"
  let head := (stats.headHeight?.map toString).getD "none"
  host.print s!"Head: {head}"
  host.print s!"BSQ txs: {stats.txCount}"
  let burnt := Amount.text stats.totalBurntFee
  host.print s!"Burnt: {burnt}"

/-- Lists the unspent outputs, with their count, their sum as far as a word goes, and the digest. -/
def listUtxos (host : Host m) (config : Config) : ExceptT Failure m Unit := do
  let chain ← host.openChain config
  let unspent ← orFail .store chain.store.snapshot
  for (r, entry) in unspent.toList do
    let ref := r.text
    let amount := Amount.text entry.value
    host.print s!"{ref}  {amount}  (height {entry.height})"
  host.print ""
  host.print s!"UTXOs: {unspent.size}"
  let total := Amount.text (UInt64.ofNat (min (UnspentSet.totalValue unspent) (UInt64.size - 1)))
  host.print s!"Total: {total}"
  let root := UnspentSet.root unspent
  host.print s!"State root: {root}"

/-- Shows the response to a request as hexadecimal text. -/
def serve (host : Host m) (config : Config) (request : Sync.Request) :
    ExceptT Failure m Unit := do
  let chain ← host.openChain config
  let blocks ← orFail .store (chain.store.blocksFrom request.fromHeight)
  let response := Sync.serve request blocks
  host.complain s!"ℹ serving {response.blocks.length} blocks from {request.fromHeight}"
  host.print (Hex.encode (Sync.Envelope.bytes { message := .response response }))

/-- Applies the blocks of the response in a file, if it answers the request with this number. -/
def sync (host : Host m) (config : Config) (path : String) (nonce : Int32)
    (fromHeight? : Option UInt64) : ExceptT Failure m Unit := do
  let chain ← host.openChain config
  let fromHeight ←
    match fromHeight? with
    | some height => pure height
    | none => orFail .halted chain.nextHeight
  let tracker := Sync.Tracker.empty.track { fromHeight, nonce }
  let text ← host.require path
  let bytes ← orFail .badHex (Hex.decode (Text.trim text))
  let received ← orFail .sync (Sync.decodeResponse bytes)
  let response ← orFail .sync (tracker.accept received).1
  let (result, chain) := chain.follow response.blocks
  host.saveLedger config chain.store
  match result with
  | .ok applied =>
    let offered := response.blocks.length
    host.print s!"✓ Applied {applied} of {offered} peer blocks (nonce {response.nonce})"
  | .error (b, .refused r) =>
    let cause := r.message
    host.complain s!"✗ Block {b.height} rejected: {cause}"
    throw (.rejected r)
  | .error (_, .overflow o) => throw (.halted o)

/-- Asks providers for the fee of a transaction, in order, until one knows it. -/
def askProviders (host : Host m) (unit : UInt64) (txId : String) :
    List String → ExceptT Failure m Unit
  | [] => throw (.noFee txId)
  | name :: rest => do
    match Fee.Provider.byName? name with
    | none =>
      host.complain s!"✗ Unknown fee provider '{name}'"
      host.askProviders unit txId rest
    | some provider =>
      host.print s!"ℹ Requesting fee for {txId} from {name}..."
      let means : Fee.Means m :=
        { ask := host.ask provider, wait := fun units => host.wait (unit.toNat * units.toNat) }
      match ← ExceptT.lift (Fee.lookUp means name txId) with
      | .ok fee => host.print s!"✓ Fee: {fee} sat"
      | .error (.refused e) =>
        let cause := e.message
        host.complain s!"✗ {cause}"
        host.askProviders unit txId rest
      | .error (.overflow o) => throw (.halted o)

/-- A byte as two digits in base sixteen. -/
def byteText (b : UInt8) : String :=
  let digits := Hex.encode [b]
  s!"0x{digits}"

/-- Shows the payload of a compensation request for a text. -/
def opReturn (host : Host m) (text : String) : ExceptT Failure m Unit := do
  let payload := Payload.encodeRequest (Utf8.encode text)
  if payload.isEmpty then host.print "(empty payload)"
  else
    let bytes := Hex.encode payload
    host.print s!"Payload: {bytes}"
    match Payload.decode? payload with
    | some p =>
      let tag := byteText p.tag
      let version := byteText p.version
      let hash := Hex.encode p.hash
      host.print s!"Type: {tag}"
      host.print s!"Version: {version}"
      host.print s!"Hash160: {hash}"
    | none => pure ()

/-- Carries a command out. -/
def perform (host : Host m) (config : Config) : Command → ExceptT Failure m Unit
  | .replay path => host.replay config path
  | .utxos => host.listUtxos config
  | .serve fromHeight nonce => host.serve config { fromHeight, nonce }
  | .sync path nonce fromHeight? => host.sync config path nonce fromHeight?
  | .fee txId provider? =>
    host.askProviders config.fees.retryUnit txId
      ((provider?.map fun name => [name]).getD config.fees.providers)
  | .opReturn text => host.opReturn text

/-- Carries out what the words of a command line ask for. The answer is the exit code. -/
def run (host : Host m) (words : List String) : m Nat := do
  match Command.parse? (host.environment "BSQ_CONFIG") words with
  | none => return 2
  | some .version =>
    host.print versionLine
    return 0
  | some (.command configFile? c) =>
    let done ← ExceptT.run do
      let config ← host.loadConfig configFile?
      host.perform config c
    match done with
    | .ok () => return 0
    | .error f =>
      host.complain f.line
      return f.exitCode

end Host

end TokenLedger
