import TokenLedger.SortedMap
import TokenLedger.Sync.Exchange

/-!
The requests that wait for a response, by their numbers. A response ends the wait whether it is of
use or not, so each request is answered at most once.
-/

namespace TokenLedger.Sync

/-- The heights that were asked from, by the numbers of the requests that are waiting. -/
structure Tracker where
  outstanding : SortedMap Int32 UInt64 := SortedMap.empty

namespace Tracker

/-- The tracker that waits for nothing. -/
def empty : Tracker := {}

/-- How many requests are waiting. -/
def size (t : Tracker) : Nat := t.outstanding.size

/-- Waits for the response to a request, in the place of any other of the same number. -/
def track (t : Tracker) (request : Request) : Tracker :=
  { outstanding := t.outstanding.insert request.nonce request.fromHeight }

/-- Makes a request with the first number drawn that no request is waiting under. -/
def create? (t : Tracker) (fromHeight : UInt64) (draws : List Int32) : Option (Request × Tracker) :=
  (draws.find? fun n => !t.outstanding.contains n).map fun nonce =>
    ({ fromHeight, nonce }, t.track { fromHeight, nonce })

/-- Waits no longer; the answer is whether a request was waiting. -/
def cancel (t : Tracker) (nonce : Int32) : Bool × Tracker :=
  (t.outstanding.contains nonce, { outstanding := t.outstanding.erase nonce })

/-- Takes a response in, if it is waited for and its blocks are those asked for. -/
def accept (t : Tracker) (response : Response) : Except SyncError Response × Tracker :=
  match t.outstanding.find? response.nonce with
  | none => (.error (.unknownNonce response.nonce), t)
  | some height =>
    let left : Tracker := { outstanding := t.outstanding.erase response.nonce }
    match checkAscending height response.blocks with
    | .ok () => (.ok response, left)
    | .error e => (.error e, left)

end Tracker

end TokenLedger.Sync
