import TokenLedger.Amount
import TokenLedger.Fee.Provider

/-!
One lookup of a fee with a limited number of attempts. After each failure it waits for a timer, each
time one unit longer, and then tries again; after the fourth it fails for good. It settles once:
what arrives after that is ignored, and so is a failure while the timer runs. How often the timer has
run out is counted in a word, also after that, and the lookup stops once the word is full.
-/

namespace TokenLedger.Fee

/-- How often a lookup tries. -/
def maxAttempts : UInt32 := 4

/-- How far a lookup is. -/
inductive LookupState where
  | pending (attempt : UInt32)
  | succeeded (fee : UInt64)
  | failed (e : ProviderError)
deriving DecidableEq, Repr

/-- What is to be done after an event. -/
inductive Transition where
  /-- The lookup has settled. -/
  | complete
  /-- Wait this many units. -/
  | retryAfter (units : UInt32)
  /-- Ask again. -/
  | reissue
  | ignored
deriving DecidableEq, Repr

/-- Why a lookup gave no fee. -/
inductive LookupError where
  | permanent (txId provider : String) (attempts : UInt32) (last : ProviderError)
  /-- The lookup ended before it settled. -/
  | interrupted
deriving DecidableEq, Repr

/-- The wording of an error. -/
def LookupError.message : LookupError → String
  | permanent txId provider attempts last =>
    let cause := last.message
    s!"Fee lookup for {txId} via {provider} failed after {attempts} attempts: {cause}"
  | interrupted => "Fee lookup interrupted before completion"

/-- The count after one more, if a word holds it. -/
def oneMore (count : UInt32) : Except Overflow UInt32 :=
  if count.toNat + 1 < UInt32.size then .ok (count + 1) else .error .sum

theorem oneMore_eq_ok_iff {count next : UInt32} :
    oneMore count = .ok next ↔ next.toNat = count.toNat + 1 := by
  have bound := next.toNat_lt
  unfold oneMore UInt32.size
  constructor
  · intro h
    split at h
    · rename_i fits
      cases h
      rw [UInt32.toNat_add, UInt32.toNat_one, Nat.mod_eq_of_lt fits]
    · cases h
  · intro h
    rw [if_pos (by omega)]
    congr 1
    apply UInt32.toNat_inj.1
    rw [UInt32.toNat_add, UInt32.toNat_one, Nat.mod_eq_of_lt (by omega), h]

theorem exists_oneMore {count : UInt32} (room : count.toNat + 1 < UInt32.size) :
    ∃ next, oneMore count = .ok next :=
  ⟨count + 1, if_pos room⟩

/-- A lookup. -/
structure Lookup where
  state : LookupState := .pending 1
  /-- How often the timer has run out. -/
  faults : UInt32 := 0
  timerArmed : Bool := false
  lastError? : Option ProviderError := none
deriving DecidableEq, Repr

namespace Lookup

/-- Whether the result is known. -/
def isSettled (l : Lookup) : Bool :=
  match l.state with
  | .pending _ => false
  | _ => true

/-- A fee arrives. -/
def onSuccess (l : Lookup) (fee : UInt64) : Transition × Lookup :=
  if l.isSettled then (.ignored, l) else (.complete, { l with state := .succeeded fee })

/-- A failure arrives. -/
def onFailure (l : Lookup) (e : ProviderError) : Except Overflow (Transition × Lookup) :=
  if l.isSettled || l.timerArmed then return (.ignored, l)
  else do
    let units ← oneMore l.faults
    return (.retryAfter units, { l with timerArmed := true, lastError? := some e })

/-- The timer runs out. -/
def onTimer (l : Lookup) : Except Overflow (Transition × Lookup) := do
  let faults ← oneMore l.faults
  let l := { l with timerArmed := false, faults }
  if l.isSettled then return (.ignored, l)
  else if l.faults < maxAttempts then
    let attempt ← oneMore l.faults
    return (.reissue, { l with state := .pending attempt })
  else return (.complete, { l with state := .failed (l.lastError?.getD (.task "no error recorded")) })

/-- What the lookup came to, once it has settled. -/
def result? (l : Lookup) (txId provider : String) : Option (Except LookupError UInt64) :=
  match l.state with
  | .pending _ => none
  | .succeeded fee => some (.ok fee)
  | .failed e => some (.error (.permanent txId provider l.faults e))

end Lookup

/-- What a lookup lives through. -/
inductive LookupEvent where
  | success (fee : UInt64)
  | failure (e : ProviderError)
  | timer
deriving DecidableEq, Repr

/-- Goes through an event. -/
def Lookup.step (l : Lookup) : LookupEvent → Except Overflow (Transition × Lookup)
  | .success fee => .ok (l.onSuccess fee)
  | .failure e => l.onFailure e
  | .timer => l.onTimer

end TokenLedger.Fee
