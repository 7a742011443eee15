import TokenLedger.Config
import TokenLedger.Json.Error
import TokenLedger.Rejection
import TokenLedger.Sync.Exchange

/-!
Why a command fails. The last line that a failing command leaves says which cause it was: a word for
those that other programs look out for, and a sentence in quotes for those that people do.
-/

namespace TokenLedger

/-- Why a ledger cannot be opened. -/
inductive OpenFault where
  /-- Its directory cannot be made. -/
  | directory
  /-- Something else stands where its database should be. -/
  | database
deriving DecidableEq, Repr

/-- Why a command fails. -/
inductive Failure where
  /-- A number did not fit; the command halts on the spot. -/
  | halted (o : Overflow)
  | environment (e : Text.NumberError)
  /-- A file cannot be read. -/
  | unreadable
  | badToml
  | config (f : ConfigFault)
  | badJson (e : Json.Error)
  | notOpened (f : OpenFault)
  | store (e : StoreError)
  | rejected (r : Rejection)
  | badHex (e : Hex.Error)
  | sync (e : Sync.SyncError)
  | noFee (txId : String)
deriving DecidableEq, Repr

/-- The word for a store error. -/
def StoreError.word : StoreError → String
  | backend _ => "Backend"
  | corrupt _ => "Corrupt"

/-- The word for a rejection. -/
def Rejection.word : Rejection → String
  | heightMismatch _ _ => "HeightMismatch"
  | previousHashMismatch _ _ _ => "PreviousHashMismatch"
  | duplicateTx _ _ => "DuplicateTx"
  | malformedTxId _ _ => "MalformedTxId"
  | balanceOverflow _ => "BalanceOverflow"
  | divergence _ _ => "Divergence"
  | store _ => "Store"

/-- The word for hexadecimal text that is none. -/
def Hex.Error.word : Hex.Error → String
  | oddLength => "OddLength"
  | invalidCharacter _ _ => "InvalidHexCharacter"

/-- The word for a message that is of no use. -/
def Sync.SyncError.word : Sync.SyncError → String
  | wire _ => "Wire"
  | unexpectedMessage _ => "UnexpectedMessage"
  | unknownNonce _ => "UnknownNonce"
  | nonceMismatch _ _ => "NonceMismatch"
  | outOfOrder _ => "OutOfOrder"

namespace Failure

/-- The word or the quoted sentence for a failure. -/
def label : Failure → String
  | halted o => o.message
  | environment _ => "ParseIntError"
  | unreadable => "Os"
  | badToml => "TomlError"
  | config f => Text.quoted f.message
  | badJson _ => "Error"
  | notOpened .directory => "Os"
  | notOpened .database => "Io"
  | store e => e.word
  | rejected r => r.word
  | badHex e => e.word
  | sync e => e.word
  | noFee txId => Text.quoted s!"No provider returned a fee for {txId}"

/-- The last line that a failing command leaves. -/
def line (f : Failure) : String :=
  let label := f.label
  s!"Error: {label}"

/-- The exit code of a failing command. -/
def exitCode : Failure → Nat
  | halted _ => 101
  | _ => 1

/-- The failure behind a stop. -/
def ofStop {ε : Type} (refused : ε → Failure) : Stop ε → Failure
  | .overflow o => halted o
  | .refused e => refused e

end Failure

end TokenLedger
