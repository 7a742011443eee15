import TokenLedger.Json.Value

/-!
Where the fee of a transaction can be asked for. A provider answers with a JSON text that holds the
fee under a name of its own; whatever goes wrong is worth another try.
-/

namespace TokenLedger.Fee

/-- Why a provider gave no fee. -/
inductive ProviderError where
  | http (cause : String)
  | status (code : Nat)
  /-- The answer has no amount under the name of the fee. -/
  | missingField (name : String)
  | task (cause : String)
deriving DecidableEq, Repr

/-- The wording of an error. -/
def ProviderError.message : ProviderError → String
  | http cause => s!"Fee provider request failed: {cause}"
  | status code => s!"Fee provider returned HTTP {code}"
  | missingField name => s!"Fee provider response has no usable '{name}'"
  | task cause => s!"Fee provider task failed: {cause}"

/-- A provider that is asked under an address followed by the id of the transaction. -/
structure Provider where
  name : String
  baseUrl : String
  /-- The name under which the answer holds the fee. -/
  field : String
deriving DecidableEq, Repr

namespace Provider

def blocktrail : Provider where
  name := "blocktrail"
  baseUrl := "https://www.blocktrail.com/BTC/json/blockchain/tx/"
  field := "fee"

def blockcypher : Provider where
  name := "blockcypher"
  baseUrl := "https://api.blockcypher.com/v1/btc/main/txs/"
  field := "fees"

/-- The provider of a name. -/
def byName? (name : String) : Option Provider :=
  [blocktrail, blockcypher].find? fun p => p.name == name

/-- The address under which the fee of a transaction is asked for. -/
def url (p : Provider) (txId : String) : String := p.baseUrl ++ txId

/-- The fee in an answer. -/
def readFee (p : Provider) (answer : Json.Value) : Except ProviderError UInt64 :=
  match (answer.member? p.field).bind Json.Value.amount? with
  | some fee => .ok fee
  | none => .error (.missingField p.field)

end Provider

end TokenLedger.Fee
