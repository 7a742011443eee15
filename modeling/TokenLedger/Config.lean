import TokenLedger.Genesis
import TokenLedger.OutputRef
import TokenLedger.Text.Number

/-!
The settings of a node: where its ledger begins, where it is kept, and whom to ask for fees. They
come from a file or from the environment, in which each may be left out.
-/

namespace TokenLedger

/-- Whom to ask for fees, and how long to wait. -/
structure FeeSettings where
  /-- The milliseconds of a unit of waiting. -/
  retryUnit : UInt64
  /-- The names of providers, in the order in which they are asked. -/
  providers : List String
deriving DecidableEq, Repr

/-- The settings of a node. -/
structure Config where
  genesis : Genesis
  dataDir : String
  fees : FeeSettings
deriving DecidableEq, Repr

/-- What is wrong with settings. -/
inductive ConfigFault where
  | genesisTxId (e : RefError)
  | noRetryUnit
deriving DecidableEq, Repr

/-- The wording of a fault. -/
def ConfigFault.message : ConfigFault → String
  | genesisTxId e =>
    let cause := e.message
    s!"genesis_tx_id: {cause}"
  | noRetryUnit => "fee_lookup.retry_unit_ms must be > 0"

/-- The fee settings that hold if nothing else is said. -/
def FeeSettings.standard : FeeSettings where
  retryUnit := 1000
  providers := ["blocktrail", "blockcypher"]

namespace Config

/-- The settings that hold if nothing else is said. -/
def standard : Config where
  genesis :=
    { txId := "e0c1b7a7f2d7d5f5c3c0e7b0a0f6a3a9c1d2e3f4a5b6c7d8e9f0a1b2c3d4e5f6", height := 111 }
  dataDir := "./bsq-data"
  fees := .standard

/-- Checks settings. -/
def validate (c : Config) : Except ConfigFault Unit :=
  match checkTxId c.genesis.txId with
  | .error e => .error (.genesisTxId e)
  | .ok () => if c.fees.retryUnit = 0 then .error .noRetryUnit else .ok ()

/-- The path of a file in a directory. -/
def joinPath (dir file : String) : String :=
  if dir.isEmpty || dir.toList.getLast? == some '/' then dir ++ file else dir ++ "/" ++ file

/-- Where the ledger is kept. -/
def ledgerPath (c : Config) : String := joinPath c.dataDir "ledger"

/-- The names in a list with commas: blanks around them and empty ones are left out. -/
def providerNames (s : String) : List String :=
  ((Text.fields ',' s.toList).map fun cs => String.ofList (Text.trimChars cs)).filter
    fun name => !name.isEmpty

/-- The settings in an environment; `var` gives the value of a variable. -/
def ofEnvironment (var : String → Option String) : Except Text.NumberError Config := do
  let number (name : String) (standard : UInt64) : Except Text.NumberError UInt64 :=
    match var name with
    | some s => Text.readU64 s
    | none => .ok standard
  let height ← number "BSQ_GENESIS_BLOCK_HEIGHT" standard.genesis.height
  let retryUnit ← number "BSQ_FEE_RETRY_UNIT_MS" standard.fees.retryUnit
  return {
    genesis := { txId := (var "BSQ_GENESIS_TX_ID").getD standard.genesis.txId, height }
    dataDir := (var "BSQ_DATA_DIR").getD standard.dataDir
    fees := {
      retryUnit
      providers := ((var "BSQ_FEE_PROVIDERS").map providerNames).getD standard.fees.providers } }

end Config

end TokenLedger
