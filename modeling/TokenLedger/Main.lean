import TokenLedger.Command.Run
import TokenLedger.Store.Saved

/-!
The command line: a node on a machine with files. The ledger of a node is one file in the directory
`ledger` below its data directory. It is written beside the old one first, so a stop in between
leaves one of the two whole.
-/

namespace TokenLedger.Machine

/-- The variables that a node looks at. -/
def variableNames : List String :=
  ["BSQ_CONFIG", "BSQ_GENESIS_TX_ID", "BSQ_GENESIS_BLOCK_HEIGHT", "BSQ_DATA_DIR",
    "BSQ_FEE_RETRY_UNIT_MS", "BSQ_FEE_PROVIDERS"]

/-- The text of a file, if it can be read. -/
def readFile (path : String) : IO (Option String) := do
  try return some (← IO.FS.readFile path) catch _ => return none

/-- Makes a directory and those above it; the answer is whether it is there. -/
def makeDirectory (path : String) : IO Bool := do
  if path.isEmpty then return true
  try
    IO.FS.createDirAll path
    return true
  catch _ => return false

/-- Where the database of a ledger lies. -/
def databasePath (config : Config) : String := Config.joinPath config.ledgerPath "database"

/-- Opens a ledger. One that was never written to is empty. -/
def openLedger (config : Config) : IO (Except OpenFault Database) := do
  if ! (← makeDirectory config.dataDir) then return .error .directory
  if ! (← makeDirectory config.ledgerPath) then return .error .database
  try
    let bytes ← IO.FS.readBinFile (databasePath config)
    match Database.ofBytes bytes.data.toList with
    | .ok db => return .ok db
    | .error _ => return .error .database
  catch
    | .noFileOrDirectory _ _ _ => return .ok Database.empty
    | _ => return .error .database

/-- Writes a ledger. -/
def saveLedger (config : Config) (db : Database) : IO Unit := do
  let path := databasePath config
  let fresh := path ++ ".new"
  IO.FS.writeBinFile fresh ⟨db.bytes.toArray⟩
  IO.FS.rename fresh path

/-- A machine without a connection to the providers. -/
def host (values : List (String × String)) : Host IO where
  environment name := (values.find? fun e => e.1 == name).map Prod.snd
  fileText? := readFile
  openLedger := openLedger
  saveLedger := saveLedger
  print line := IO.println line
  complain line := IO.eprintln line
  ask _ _ := return .error (.http "no connection")
  wait ms := IO.sleep (UInt32.ofNat ms)

end TokenLedger.Machine

/-- Runs a node with the words of the command line. -/
def main (words : List String) : IO UInt32 := do
  let values ← TokenLedger.Machine.variableNames.filterMapM fun name => do
    return (← IO.getEnv name).map fun value => (name, value)
  let code ← (TokenLedger.Machine.host values).run words
  return UInt32.ofNat code
