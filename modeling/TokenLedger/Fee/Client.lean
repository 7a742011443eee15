import TokenLedger.Amount
import TokenLedger.Fee.Lookup

/-!
Carrying lookups out. A client asks a provider, waits when a lookup says so, and asks again until
the lookup settles.
-/

namespace TokenLedger.Fee

/-- How a client reaches the world: it asks for the fee of a transaction, and it waits. -/
structure Means (m : Type → Type) where
  ask : String → m (Except ProviderError UInt64)
  wait : (units : UInt32) → m Unit

section

variable {m : Type → Type} [Monad m]

/-- Asks once, and waits for the timer to run out if it was armed. -/
def attempt (means : Means m) (txId : String) (l : Lookup) :
    m (Except Overflow (Transition × Lookup)) := do
  let answered : Except Overflow (Transition × Lookup) :=
    match ← means.ask txId with
    | .ok fee => .ok (l.onSuccess fee)
    | .error e => l.onFailure e
  match answered with
  | .ok (.retryAfter units, l) =>
    means.wait units
    return l.onTimer
  | answered => return answered

/-- Asks for as long as the lookup says so, at most `fuel` times. -/
def attempts (means : Means m) (txId : String) : (fuel : Nat) → Lookup → m (Except Overflow Lookup)
  | 0, l => return .ok l
  | fuel + 1, l => do
    match ← attempt means txId l with
    | .ok (.reissue, l) => attempts means txId fuel l
    | .ok (_, l) => return .ok l
    | .error o => return .error o

/-- Looks up the fee of a transaction. -/
def lookUp (means : Means m) (provider txId : String) : m (Except (Stop LookupError) UInt64) := do
  match ← attempts means txId maxAttempts.toNat {} with
  | .ok l => return ((l.result? txId provider).getD (.error .interrupted)).mapError .refused
  | .error o => return .error (.overflow o)

end

/-- The milliseconds that have gone by after each of some waits, which are counted in units. -/
def elapsed (unit : UInt64) (waits : List UInt32) : Except Overflow (List Nat) := do
  let delays ← waits.mapM fun units =>
    let ms := unit.toNat * units.toNat
    if ms < UInt64.size * 1000 then .ok ms else .error .product
  return (delays.foldl (fun (sum, seen) d => (sum + d, seen ++ [sum + d])) (0, [])).2

end TokenLedger.Fee
