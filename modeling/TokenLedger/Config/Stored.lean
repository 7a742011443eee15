import TokenLedger.Config
import TokenLedger.Json.Form
import TokenLedger.Toml.Document
import TokenLedger.Toml.Printer

/-!
The stored forms of settings: TOML for files, and JSON.
-/

namespace TokenLedger

namespace Json.Form

def feeSettings : Form FeeSettings :=
  (((Members.one "retry_unit_ms" word64).and (.one "providers" (list string))).record
    "struct FeeLookupConfig").imap
    (fun (retryUnit, providers) => { retryUnit, providers })
    (fun f => (f.retryUnit, f.providers))

def config : Form Config :=
  (((Members.one "genesis_tx_id" string).and ((Members.one "genesis_block_height" word64).and
    ((Members.one "data_dir" (quotedAs "path string")).and
      (.one "fee_lookup" feeSettings (some .standard))))).record "struct DaoConfig").imap
    (fun (txId, height, dataDir, fees) => { genesis := { txId, height }, dataDir, fees })
    (fun c => (c.genesis.txId, c.genesis.height, c.dataDir, c.fees))

end Json.Form

namespace Toml.Node

/-- The text that a node is. -/
def text? : Node → Option String
  | text s => some s
  | _ => none

/-- The word that a node is. -/
def word? : Node → Option UInt64
  | integer n => if 0 ≤ n then some (UInt64.ofNat n.toNat) else none
  | _ => none

/-- The texts that a node lists. -/
def texts? : Node → Option (List String)
  | list items => items.mapM text?
  | _ => none

/-- The fee settings that a node is: a table, or their values in order. -/
def feeSettings? : Node → Option FeeSettings
  | table _ members => do
    let retryUnit ← (← Members.find? members "retry_unit_ms").word?
    let providers ← (← Members.find? members "providers").texts?
    return { retryUnit, providers }
  | list (retryUnit :: providers :: _) => do
    return { retryUnit := ← retryUnit.word?, providers := ← providers.texts? }
  | _ => none

end Toml.Node

namespace Config

/-- The settings in the members of a TOML text; the fee settings may be missing. -/
def ofMembers? (members : Toml.Members) : Option Config := do
  let txId ← (← members.find? "genesis_tx_id").text?
  let height ← (← members.find? "genesis_block_height").word?
  let dataDir ← (← members.find? "data_dir").text?
  let fees ←
    match members.find? "fee_lookup" with
    | some node => node.feeSettings?
    | none => some .standard
  return { genesis := { txId, height }, dataDir, fees }

/-- The settings in a TOML text. -/
def ofToml? (s : String) : Option Config := do ofMembers? (← Toml.parse? s)

/-- The TOML text of settings, if the format holds their numbers. -/
def toml? (c : Config) : Option String := do
  let height ← Toml.writeWord? c.genesis.height
  let retryUnit ← Toml.writeWord? c.fees.retryUnit
  return String.ofList
    (Toml.writeSetting "genesis_tx_id" (Toml.writeText c.genesis.txId)
      ++ Toml.writeSetting "genesis_block_height" height
      ++ Toml.writeSetting "data_dir" (Toml.writeText c.dataDir)
      ++ Toml.writeHeader "fee_lookup"
      ++ Toml.writeSetting "retry_unit_ms" retryUnit
      ++ Toml.writeSetting "providers" (Toml.writeTexts c.fees.providers))

end Config

end TokenLedger
