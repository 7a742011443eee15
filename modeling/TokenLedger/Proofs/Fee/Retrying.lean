import Mathlib.Data.List.Induction
import TokenLedger.Fee.Client
import TokenLedger.Proofs.Fee.Settling

/-!
How often a lookup tries. If the timer runs out only while it is armed, each failure that is accepted
arms it once, so a lookup waits one unit, then two, and so on up to four. A fee that arrives before the
last of these waits is over is what it settles with; without one it fails with the fourth failure. A
client lives through such events, whatever its provider answers, so it asks four times at most and
never ends without a result (`retries_are_bounded`).
-/

namespace TokenLedger.Fee

/-- The units of a wait. -/
def Transition.units? : Transition → Option Nat
  | .retryAfter units => some units.toNat
  | _ => none

/-- The cause of a failure that is answered by a wait. -/
def acceptedCause? : LookupEvent → Transition → Option ProviderError
  | .failure e, .retryAfter _ => some e
  | _, _ => none

namespace Lookup

/-- Whether the timer of a fresh lookup runs after some events, if it goes through them. -/
def armedAfter (events : List LookupEvent) : Bool :=
  match ({} : Lookup).run events with
  | .ok (_, l) => l.timerArmed
  | .error _ => false

/-- Whether the timer of a fresh lookup runs out only while it is armed. -/
def Timed (events : List LookupEvent) : Prop :=
  ∀ i < events.length, events[i]? = some .timer → armedAfter (events.take i) = true

instance (events : List LookupEvent) : Decidable (Timed events) :=
  inferInstanceAs (Decidable (∀ i < events.length, _ → _))

/-- What a fresh lookup answers to some events, if it goes through them. -/
def answered (events : List LookupEvent) : List Transition :=
  match ({} : Lookup).run events with
  | .ok (answers, _) => answers
  | .error _ => []

/-- The waits of a fresh lookup. -/
def waits (events : List LookupEvent) : List Nat := (answered events).filterMap Transition.units?

/-- The failures that a fresh lookup accepts. -/
def accepted (events : List LookupEvent) : List ProviderError :=
  (events.zip (answered events)).filterMap fun (e, answer) => acceptedCause? e answer

/-- A fee arrives first of all fees, and before the last timer runs out. -/
def SucceedsWith (fee : UInt64) (events : List LookupEvent) : Prop :=
  ∃ before after, events = before ++ .success fee :: after ∧ (∀ other, .success other ∉ before)
    ∧ before.count .timer < maxAttempts.toNat

/-- The last timer runs out, with no fee before; `cause` is the last failure that was accepted. -/
def FailsWith (cause : ProviderError) (events : List LookupEvent) : Prop :=
  ∃ before after, events = before ++ .timer :: after ∧ (∀ fee, .success fee ∉ before)
    ∧ before.count .timer + 1 = maxAttempts.toNat
    ∧ (accepted before).length = maxAttempts.toNat ∧ (accepted before).getLast? = some cause

variable {l after : Lookup} {events : List LookupEvent} {e : LookupEvent} {answer : Transition}
  {answers : List Transition}

/-! ## One more event -/

theorem filterMap_concat {α β : Type} (f : α → Option β) (as : List α) (a : α) :
    (as ++ [a]).filterMap f = as.filterMap f ++ (f a).toList := by
  rw [List.filterMap_append]
  cases found : f a <;> simp [found]

theorem run_concat (ran : ({} : Lookup).run events = .ok (answers, l))
    (stepped : l.step e = .ok (answer, after)) :
    ({} : Lookup).run (events ++ [e]) = .ok (answers ++ [answer], after) := by
  refine run_append_eq_ok_iff.2 ⟨answers, l, [answer], ran, ?_, rfl⟩
  exact run_cons_eq_ok_iff.2 ⟨answer, after, [], stepped, rfl, rfl⟩

theorem answered_eq (ran : ({} : Lookup).run events = .ok (answers, l)) :
    answered events = answers := by
  rw [answered, ran]

theorem waits_concat (ran : ({} : Lookup).run events = .ok (answers, l))
    (stepped : l.step e = .ok (answer, after)) :
    waits (events ++ [e]) = waits events ++ answer.units?.toList := by
  rw [waits, answered_eq (run_concat ran stepped), filterMap_concat, waits, answered_eq ran]

theorem accepted_concat (ran : ({} : Lookup).run events = .ok (answers, l))
    (stepped : l.step e = .ok (answer, after)) :
    accepted (events ++ [e]) = accepted events ++ (acceptedCause? e answer).toList := by
  rw [accepted, answered_eq (run_concat ran stepped), List.zip_append (length_run ran).symm,
    List.zip_cons_cons, List.zip_nil_left, filterMap_concat, accepted, answered_eq ran]

theorem Timed.of_append {later : List LookupEvent} (timed : Timed (events ++ later)) :
    Timed events := by
  intro i inside found
  have armed := timed i (by rw [List.length_append]; omega)
  rw [List.getElem?_append_left inside, List.take_append_of_le_length (Nat.le_of_lt inside)] at armed
  exact armed found

theorem Timed.armed (timed : Timed (events ++ [.timer]))
    (ran : ({} : Lookup).run events = .ok (answers, l)) : l.timerArmed = true := by
  have armed := timed events.length (by simp)
  rw [List.getElem?_concat_length, List.take_left, armedAfter, ran] at armed
  exact armed rfl

theorem SucceedsWith.concat {fee : UInt64} (succeeds : SucceedsWith fee events) :
    SucceedsWith fee (events ++ [e]) := by
  obtain ⟨before, after, rfl, rest⟩ := succeeds
  exact ⟨before, after ++ [e], by rw [List.append_assoc, List.cons_append], rest⟩

theorem FailsWith.concat {cause : ProviderError} (fails : FailsWith cause events) :
    FailsWith cause (events ++ [e]) := by
  obtain ⟨before, after, rfl, rest⟩ := fails
  exact ⟨before, after ++ [e], by rw [List.append_assoc, List.cons_append], rest⟩

/-! ## What a lookup remembers -/

/-- How the state of a lookup comes from what it lived through. -/
def Explained (events : List LookupEvent) (l : Lookup) : Prop :=
  match l.state with
  | .pending attempt => attempt.toNat = 1 + l.faults.toNat ∧ l.faults < maxAttempts
      ∧ (∀ fee, .success fee ∉ events) ∧ l.lastError? = (accepted events).getLast?
  | .succeeded fee => SucceedsWith fee events
  | .failed cause => FailsWith cause events

/-- What a lookup remembers of what it lived through. -/
structure Remembers (events : List LookupEvent) (l : Lookup) : Prop where
  waited : waits events = List.range' 1 (accepted events).length
  /-- Each failure that is accepted arms the timer, which runs out once for it. -/
  armed : (accepted events).length = l.faults.toNat + l.timerArmed.toNat
  few : (accepted events).length ≤ maxAttempts.toNat
  explained : Explained events l

theorem remembers_nil : Remembers [] {} where
  waited := rfl
  armed := rfl
  few := by decide
  explained := ⟨rfl, by decide, nofun, rfl⟩

theorem Explained.of_settled (explained : Explained events l) (settled : l.isSettled = true)
    (same : after.state = l.state) : Explained (events ++ [e]) after := by
  unfold isSettled at settled
  unfold Explained at explained ⊢
  rw [same]
  cases state : l.state with
  | pending attempt => simp [state] at settled
  | succeeded fee =>
    rw [state] at explained
    exact explained.concat
  | failed cause =>
    rw [state] at explained
    exact explained.concat

theorem Explained.of_pending (explained : Explained events l) (pending : l.isSettled = false) :
    ∃ attempt, l.state = .pending attempt ∧ attempt.toNat = 1 + l.faults.toNat
      ∧ l.faults < maxAttempts ∧ (∀ fee, .success fee ∉ events)
      ∧ l.lastError? = (accepted events).getLast? := by
  unfold isSettled at pending
  unfold Explained at explained
  cases state : l.state with
  | pending attempt =>
    rw [state] at explained
    exact ⟨attempt, rfl, explained⟩
  | succeeded fee => simp [state] at pending
  | failed cause => simp [state] at pending

/-- An event that no failure is accepted with. -/
theorem Remembers.concat (remembers : Remembers events l)
    (waited : waits (events ++ [e]) = waits events)
    (accepts : accepted (events ++ [e]) = accepted events)
    (armed : after.faults.toNat + after.timerArmed.toNat = l.faults.toNat + l.timerArmed.toNat)
    (explained : Explained (events ++ [e]) after) : Remembers (events ++ [e]) after where
  waited := by rw [waited, accepts, remembers.waited]
  armed := by rw [accepts, remembers.armed, armed]
  few := accepts ▸ remembers.few
  explained := explained

/-- A settled lookup takes notice of nothing but the timer. -/
theorem Remembers.concat_of_settled (remembers : Remembers events l) (settled : l.isSettled = true)
    (overlooks : l.Overlooks e after) (waited : waits (events ++ [e]) = waits events)
    (accepts : accepted (events ++ [e]) = accepted events)
    (timed : e = .timer → l.timerArmed = true) : Remembers (events ++ [e]) after := by
  cases overlooks with
  | answer other =>
    exact remembers.concat waited accepts rfl (remembers.explained.of_settled settled rfl)
  | timer counted =>
    refine remembers.concat waited accepts ?_ (remembers.explained.of_settled settled rfl)
    rw [counted, timed rfl]
    rfl

/-- A lookup that has not settled goes on, or it settles as it has to. -/
theorem Remembers.concat_of_pending (remembers : Remembers events l) (pending : l.isSettled = false)
    (advances : l.Advances e answer after) (ranOut : l.faults.toNat = events.count .timer)
    (waited : waits (events ++ [e]) = waits events ++ answer.units?.toList)
    (accepts : accepted (events ++ [e]) = accepted events ++ (acceptedCause? e answer).toList)
    (timed : e = .timer → l.timerArmed = true) : Remembers (events ++ [e]) after := by
  obtain ⟨attempt, state, number, few, noFee, last⟩ := remembers.explained.of_pending pending
  have below : l.faults.toNat < maxAttempts.toNat := UInt32.lt_iff_toNat_lt.1 few
  have armed := remembers.armed
  have others : ∀ {e : LookupEvent}, (∀ fee, e ≠ .success fee) → ∀ fee, .success fee ∉ events ++ [e] := by
    intro e other fee member
    rcases List.mem_append.1 member with before | last
    · exact noFee fee before
    · exact other fee (List.mem_singleton.1 last).symm
  cases advances with
  | succeed fee =>
    refine remembers.concat (waited.trans (List.append_nil _)) (accepts.trans (List.append_nil _))
      rfl ?_
    exact ⟨events, [], rfl, noFee, ranOut ▸ below⟩
  | overlook cause armed =>
    have same : accepted (events ++ [.failure cause]) = accepted events :=
      accepts.trans (List.append_nil _)
    refine remembers.concat (waited.trans (List.append_nil _)) same rfl ?_
    rw [Explained, state, same]
    exact ⟨number, few, others nofun, last⟩
  | @wait cause idle units longer =>
    have all : accepted (events ++ [.failure cause]) = accepted events ++ [cause] := accepts
    have more : waits (events ++ [.failure cause]) = waits events ++ [units.toNat] := waited
    rw [idle, Bool.toNat_false, Nat.add_zero] at armed
    refine ⟨?_, ?_, ?_, ?_⟩
    · rw [more, all, remembers.waited, List.length_append, List.length_singleton, longer, armed,
        List.range'_1_concat, Nat.add_comm 1]
    · rw [all, List.length_append, List.length_singleton, armed]
      rfl
    · rw [all, List.length_append, List.length_singleton, armed]
      exact below
    · rw [Explained, state, all, List.getLast?_concat]
      exact ⟨number, few, others nofun, rfl⟩
  | again counted few next =>
    have same : accepted (events ++ [.timer]) = accepted events := accepts.trans (List.append_nil _)
    refine remembers.concat (waited.trans (List.append_nil _)) same ?_ ?_
    · rw [counted, timed rfl]
      rfl
    · rw [Explained, same]
      exact ⟨next.trans (Nat.add_comm _ 1), few, others nofun, last⟩
  | fail counted enough =>
    have full : l.faults.toNat + 1 = maxAttempts.toNat :=
      Nat.le_antisymm below (counted ▸ UInt32.le_iff_toNat_le.1 enough)
    rw [timed rfl, Bool.toNat_true, full] at armed
    refine remembers.concat (waited.trans (List.append_nil _)) (accepts.trans (List.append_nil _))
      ?_ ?_
    · rw [counted, timed rfl]
      rfl
    · obtain ⟨cause, recorded⟩ : ∃ cause, (accepted events).getLast? = some cause := by
        cases found : (accepted events).getLast? with
        | none =>
          rw [List.getLast?_eq_none_iff.1 found] at armed
          cases armed
        | some cause => exact ⟨cause, rfl⟩
      rw [Explained, last, recorded]
      exact ⟨events, [], rfl, noFee, ranOut ▸ full, armed, recorded⟩

/-- There is room in the count for all that a fresh lookup lives through, and it remembers it. -/
theorem exists_run_remembers (timed : Timed events) :
    ∃ answers l, ({} : Lookup).run events = .ok (answers, l) ∧ Remembers events l := by
  induction events using List.reverseRecOn with
  | nil => exact ⟨[], {}, rfl, remembers_nil⟩
  | append_singleton events e ih =>
    obtain ⟨answers, l, ran, remembers⟩ := ih timed.of_append
    have armed : e = .timer → l.timerArmed = true := by
      rintro rfl
      exact timed.armed ran
    have left : l.AttemptsLeft := fun pending => by
      obtain ⟨_, -, -, few, -⟩ := remembers.explained.of_pending pending
      exact few
    have bound : maxAttempts.toNat < UInt32.size := maxAttempts.toNat_lt
    have counted := remembers.armed
    have few := remembers.few
    -- The timer runs out for a failure that was accepted, of which there are few.
    have room : l.faults.toNat + (if e = .timer then 1 else 0) < UInt32.size := by
      split
      · rename_i timer
        rw [armed timer, Bool.toNat_true] at counted
        omega
      · omega
    obtain ⟨answer, after, stepped⟩ := exists_step left room
    refine ⟨_, after, run_concat ran stepped, ?_⟩
    have waited := waits_concat ran stepped
    have accepts := accepted_concat ran stepped
    cases settled : l.isSettled with
    | false =>
      exact remembers.concat_of_pending settled (advances_step settled stepped) (faults_fresh ran)
        waited accepts armed
    | true =>
      obtain ⟨rfl, overlooks⟩ := overlooks_step settled stepped
      have unheard : acceptedCause? e .ignored = none := by cases e <;> rfl
      rw [unheard, Option.toList_none, List.append_nil] at accepts
      exact remembers.concat_of_settled settled overlooks (waited.trans (List.append_nil _)) accepts
        armed

theorem remembers_run (timed : Timed events) (ran : ({} : Lookup).run events = .ok (answers, l)) :
    Remembers events l := by
  obtain ⟨_, _, same, remembers⟩ := exists_run_remembers timed
  rw [ran] at same
  cases same
  exact remembers

/-! ## How a lookup settles -/

/-- Without a fee and with fewer run-outs than attempts, a lookup has not settled. -/
theorem pending_of_few (timed : Timed events) (ran : ({} : Lookup).run events = .ok (answers, l))
    (noFee : ∀ fee, .success fee ∉ events) (few : events.count .timer < maxAttempts.toNat) :
    l.isSettled = false := by
  have explained := (remembers_run timed ran).explained
  unfold Explained at explained
  unfold isSettled
  cases state : l.state with
  | pending attempt => rfl
  | succeeded fee =>
    rw [state] at explained
    obtain ⟨before, after, rfl, -⟩ := explained
    exact absurd (List.mem_append_right _ List.mem_cons_self) (noFee fee)
  | failed cause =>
    rw [state] at explained
    obtain ⟨before, after, rfl, -, enough, -⟩ := explained
    rw [List.count_append, List.count_cons_self] at few
    omega

theorem state_eq_succeeded_iff (timed : Timed events)
    (ran : ({} : Lookup).run events = .ok (answers, l)) {fee : UInt64} :
    l.state = .succeeded fee ↔ SucceedsWith fee events := by
  constructor
  · intro state
    have explained := (remembers_run timed ran).explained
    rw [Explained, state] at explained
    exact explained
  · rintro ⟨before, later, rfl, noFee, few⟩
    obtain ⟨_, mid, _, earlier, rest, -⟩ := run_append_eq_ok_iff.1 ran
    obtain ⟨_, next, _, stepped, ended, -⟩ := run_cons_eq_ok_iff.1 rest
    have pending := pending_of_few timed.of_append earlier noFee few
    cases advances_step pending stepped with
    | succeed => exact (run_of_settled rfl ended).1

theorem advances_onTimer (pending : l.isSettled = false) (few : l.faults < maxAttempts) :
    ∃ answer after, l.onTimer = .ok (answer, after) ∧ l.Advances .timer answer after := by
  have below : l.faults.toNat < maxAttempts.toNat := UInt32.lt_iff_toNat_lt.1 few
  have bound : maxAttempts.toNat < UInt32.size := maxAttempts.toNat_lt
  obtain ⟨answer, after, stepped⟩ :=
    exists_step (e := .timer) (fun _ => few) (by rw [if_pos rfl]; omega)
  exact ⟨answer, after, stepped, advances_step pending stepped⟩

theorem onTimer_of_few (pending : l.isSettled = false)
    (few : l.faults.toNat + 1 < maxAttempts.toNat) :
    ∃ faults attempt, faults.toNat = l.faults.toNat + 1
      ∧ l.onTimer
        = .ok (.reissue, { l with timerArmed := false, faults, state := .pending attempt }) := by
  obtain ⟨_, _, ranOut, advances⟩ :=
    advances_onTimer pending (UInt32.lt_iff_toNat_lt.2 (Nat.lt_of_succ_lt few))
  cases advances with
  | again counted few next => exact ⟨_, _, counted, ranOut⟩
  | fail counted enough => exact absurd (counted ▸ UInt32.le_iff_toNat_le.1 enough) (Nat.not_le.2 few)

theorem onTimer_of_last (pending : l.isSettled = false)
    (last : l.faults.toNat + 1 = maxAttempts.toNat) :
    l.onTimer = .ok (.complete,
      { l with
        timerArmed := false, faults := maxAttempts
        state := .failed (l.lastError?.getD (.task "no error recorded")) }) := by
  obtain ⟨_, _, ranOut, advances⟩ :=
    advances_onTimer pending (UInt32.lt_iff_toNat_lt.2 (Nat.lt_of_succ_le (Nat.le_of_eq last)))
  cases advances with
  | again counted few next =>
    exact absurd (counted ▸ UInt32.lt_iff_toNat_lt.1 few) (Nat.not_lt.2 (Nat.le_of_eq last.symm))
  | fail counted enough =>
    rw [last, UInt32.toNat_inj] at counted
    subst counted
    exact ranOut

theorem state_eq_failed_iff (timed : Timed events)
    (ran : ({} : Lookup).run events = .ok (answers, l)) {cause : ProviderError} :
    l.state = .failed cause ↔ FailsWith cause events := by
  constructor
  · intro state
    have explained := (remembers_run timed ran).explained
    rw [Explained, state] at explained
    exact explained
  · rintro ⟨before, later, rfl, noFee, full, -, recorded⟩
    obtain ⟨_, mid, _, earlier, rest, -⟩ := run_append_eq_ok_iff.1 ran
    obtain ⟨_, next, _, stepped, ended, -⟩ := run_cons_eq_ok_iff.1 rest
    have remembers := remembers_run timed.of_append earlier
    have pending := pending_of_few timed.of_append earlier noFee (by omega)
    obtain ⟨_, -, -, -, -, last⟩ := remembers.explained.of_pending pending
    have all : mid.faults.toNat + 1 = maxAttempts.toNat := by rw [faults_fresh earlier, full]
    rw [step, onTimer_of_last pending all, last, recorded] at stepped
    cases stepped
    exact (run_of_settled rfl ended).1

theorem faults_eq_of_failed (timed : Timed events)
    (ran : ({} : Lookup).run events = .ok (answers, l)) {cause : ProviderError}
    (fails : FailsWith cause events) : l.faults = maxAttempts := by
  have remembers := remembers_run timed ran
  have armed := remembers.armed
  have few := remembers.few
  have ranOut := faults_fresh ran
  obtain ⟨before, after, rfl, -, full, -⟩ := fails
  rw [List.count_append, List.count_cons_self] at ranOut
  exact UInt32.toNat_inj.1 (by omega)

end Lookup

/-! ## Clients -/

/-- What a client does. -/
inductive Contact where
  | asked (txId : String) (answer : Except ProviderError UInt64)
  | waited (units : Nat)

/-- The means of a client that notes what it does. Its provider answers as it likes, with regard to
all that was done so far. -/
def noting (provider : List Contact → String → Except ProviderError UInt64) :
    Means (StateM (List Contact)) where
  ask txId := modifyGet fun done => (provider done txId, done ++ [.asked txId (provider done txId)])
  wait units := modify (· ++ [.waited units.toNat])

/-- What is done about failures: after each, of which `index` came before, a longer wait. -/
def failing (txId : String) (index : Nat) : List ProviderError → List Contact
  | [] => []
  | cause :: causes =>
    .asked txId (.error cause) :: .waited (1 + index) :: failing txId (index + 1) causes

/-- What a client can come to that may ask `left` times after `index` failures: a fee after less than
so many failures, or the last of so many. -/
inductive Outcome (txId : String) (index left : Nat) : List Contact → Lookup → Prop where
  | fee (causes : List ProviderError) (fee : UInt64) {after : Lookup} (few : causes.length < left)
      (succeeded : after.state = .succeeded fee) :
    Outcome txId index left (failing txId index causes ++ [.asked txId (.ok fee)]) after
  | failure (causes : List ProviderError) (cause : ProviderError) {after : Lookup}
      (all : causes.length = left) (last : causes.getLast? = some cause)
      (failed : after.state = .failed cause) (counted : after.faults = maxAttempts) :
    Outcome txId index left (failing txId index causes) after

theorem Outcome.cons {txId : String} {index left : Nat} {contacts : List Contact} {after : Lookup}
    (cause : ProviderError) (outcome : Outcome txId (index + 1) left contacts after) :
    Outcome txId index (left + 1)
      (.asked txId (.error cause) :: .waited (1 + index) :: contacts) after := by
  cases outcome with
  | fee causes fee few succeeded => exact .fee (cause :: causes) fee (Nat.succ_lt_succ few) succeeded
  | failure causes last all same failed counted =>
    refine .failure (cause :: causes) last (congrArg Nat.succ all) ?_ failed counted
    rw [List.getLast?_cons, same]
    rfl

section

variable {provider : List Contact → String → Except ProviderError UInt64} {txId : String}
  {done : List Contact} {l : Lookup}

theorem attempt_of_fee (pending : l.isSettled = false) {fee : UInt64}
    (answered : provider done txId = .ok fee) :
    (attempt (noting provider) txId l).run done
      = pure (.ok (.complete, { l with state := .succeeded fee }),
        done ++ [.asked txId (.ok fee)]) := by
  have settles : l.onSuccess fee = (.complete, { l with state := .succeeded fee }) := by
    rw [Lookup.onSuccess, pending]
    rfl
  have asked : ((noting provider).ask txId).run done
      = pure (.ok fee, done ++ [.asked txId (.ok fee)]) := by
    rw [← answered]
    rfl
  simp only [attempt, StateT.run_bind, asked, pure_bind, settles]
  rfl

theorem attempt_of_failure (pending : l.isSettled = false) (idle : l.timerArmed = false)
    (few : l.faults < maxAttempts) {cause : ProviderError}
    (answered : provider done txId = .error cause) :
    (attempt (noting provider) txId l).run done
      = pure (Lookup.onTimer { l with timerArmed := true, lastError? := some cause },
        done ++ [.asked txId (.error cause), .waited (1 + l.faults.toNat)]) := by
  obtain ⟨units, longer⟩ := Lookup.exists_oneMore_of_few few
  have waits : l.onFailure cause = .ok (.retryAfter units,
      { l with timerArmed := true, lastError? := some cause }) := by
    rw [Lookup.onFailure, pending, idle, longer]
    rfl
  have asked : ((noting provider).ask txId).run done
      = pure (.error cause, done ++ [.asked txId (.error cause)]) := by
    rw [← answered]
    rfl
  have waited : ∀ done, ((noting provider).wait units).run done
      = pure ((), done ++ [.waited units.toNat]) := fun _ => rfl
  simp only [attempt, StateT.run_bind, asked, pure_bind, waits, waited, List.append_assoc]
  rw [oneMore_eq_ok_iff.1 longer, Nat.add_comm]
  rfl

theorem attempts_succ {answer : Transition} {after : Lookup} {later : List Contact} {fuel : Nat}
    (attempted : (attempt (noting provider) txId l).run done = pure (.ok (answer, after), later)) :
    (attempts (noting provider) txId (fuel + 1) l).run done
      = if answer = .reissue then (attempts (noting provider) txId fuel after).run later
        else pure (.ok after, later) := by
  simp only [attempts, StateT.run_bind, attempted, pure_bind]
  cases answer <;> rfl

/-- A client of a lookup that has `left` attempts left comes to an end after so many, and more fuel
makes no difference. -/
theorem attempts_noting (provider : List Contact → String → Except ProviderError UInt64)
    (txId : String) (left : Nat) (done : List Contact) (l : Lookup) (pending : l.isSettled = false)
    (idle : l.timerArmed = false) (positive : 0 < left)
    (count : l.faults.toNat + left = maxAttempts.toNat) :
    ∃ contacts after, Outcome txId l.faults.toNat left contacts after
      ∧ ∀ fuel, left ≤ fuel →
        (attempts (noting provider) txId fuel l).run done = pure (.ok after, done ++ contacts) := by
  induction left generalizing l done with
  | zero => exact absurd positive (Nat.lt_irrefl 0)
  | succ left ih =>
    cases answered : provider done txId with
    | ok fee =>
      have attempted := attempt_of_fee pending answered
      refine ⟨_, { l with state := .succeeded fee }, .fee [] fee (Nat.succ_pos left) rfl,
        fun fuel enough => ?_⟩
      obtain ⟨fuel, rfl⟩ := Nat.exists_eq_add_of_le' (Nat.le_trans (Nat.succ_pos left) enough)
      exact attempts_succ attempted
    | error cause =>
      have few : l.faults < maxAttempts := UInt32.lt_iff_toNat_lt.2 (by omega)
      have attempted := attempt_of_failure pending idle few answered
      have waiting : ({ l with timerArmed := true, lastError? := some cause } : Lookup).isSettled = false :=
        pending
      by_cases last : left = 0
      · subst last
        rw [Lookup.onTimer_of_last waiting count] at attempted
        refine ⟨_, { l with
            timerArmed := false, faults := maxAttempts, lastError? := some cause
            state := .failed cause },
          .failure [cause] cause rfl rfl rfl rfl, fun fuel enough => ?_⟩
        obtain ⟨fuel, rfl⟩ := Nat.exists_eq_add_of_le' enough
        exact attempts_succ attempted
      · have positive := Nat.pos_of_ne_zero last
        have more : l.faults.toNat + 1 < maxAttempts.toNat := by omega
        obtain ⟨faults, attempt, counted, ranOut⟩ := Lookup.onTimer_of_few waiting more
        rw [ranOut] at attempted
        obtain ⟨contacts, after, outcome, ended⟩ :=
          ih (done ++ [.asked txId (.error cause), .waited (1 + l.faults.toNat)])
            { l with
              timerArmed := false, faults, lastError? := some cause, state := .pending attempt }
            rfl rfl positive (by simp only [counted]; omega)
        rw [counted] at outcome
        refine ⟨_, after, outcome.cons cause, fun fuel enough => ?_⟩
        obtain ⟨fuel, rfl⟩ := Nat.exists_eq_add_of_le' (Nat.le_trans (Nat.succ_pos left) enough)
        have enough : left ≤ fuel := by omega
        rw [attempts_succ attempted, if_pos rfl, ended fuel enough, List.append_assoc]
        rfl

end

/-- Whatever happens to a lookup whose timer runs out only while it is armed, it goes through it, and
it waits one unit, then two, and so on, at most four times. While it has not settled, its attempt is
the one after its faults, of which there are never more than four. It fails just if four failures were
accepted and their timers ran out with no fee before the last one did, and then with the fourth
failure and four attempts; it succeeds just with a fee that is the first to arrive before that. So a
client, whatever its provider answers, asks four times at most: it ends with the first fee, or with
the fourth failure, and it would ask no more if it could. -/
theorem retries_are_bounded (events : List LookupEvent) (timed : Lookup.Timed events) :
    (∃ answers l, ({} : Lookup).run events = .ok (answers, l)
      ∧ (∃ n ≤ 4, Lookup.waits events = List.range' 1 n)
      ∧ (∀ attempt, l.state = .pending attempt →
        attempt.toNat = 1 + l.faults.toNat ∧ attempt.toNat ≤ 4)
      ∧ l.faults.toNat ≤ 4
      ∧ (∀ cause, l.state = .failed cause ↔ Lookup.FailsWith cause events)
      ∧ (∀ cause, l.state = .failed cause → ∀ txId provider,
        l.result? txId provider = some (.error (.permanent txId provider 4 cause)))
      ∧ ∀ fee, l.state = .succeeded fee ↔ Lookup.SucceedsWith fee events)
    ∧ ∀ provider name txId done,
      ((∃ causes fee, causes.length < 4
          ∧ (lookUp (noting provider) name txId).run done
            = pure (.ok fee, done ++ failing txId 0 causes ++ [.asked txId (.ok fee)]))
        ∨ (∃ causes cause, causes.length = 4 ∧ causes.getLast? = some cause
          ∧ (lookUp (noting provider) name txId).run done
            = pure (.error (.refused (.permanent txId name 4 cause)),
              done ++ failing txId 0 causes)))
      ∧ ∀ fuel, 4 ≤ fuel → (attempts (noting provider) txId fuel {}).run done
        = (attempts (noting provider) txId 4 {}).run done := by
  constructor
  · obtain ⟨answers, l, ran, remembers⟩ := Lookup.exists_run_remembers timed
    have few := remembers.few
    have armed := remembers.armed
    refine ⟨answers, l, ran, ⟨_, few, remembers.waited⟩, ?_, ?_, ?_, ?_, ?_⟩
    · intro attempt state
      have explained := remembers.explained
      rw [Lookup.Explained, state] at explained
      obtain ⟨number, below, -⟩ := explained
      have below : l.faults.toNat < 4 := UInt32.lt_iff_toNat_lt.1 below
      exact ⟨number, by omega⟩
    · exact Nat.le_trans (armed ▸ Nat.le_add_right _ _) few
    · exact fun cause => Lookup.state_eq_failed_iff timed ran
    · intro cause state txId provider
      have fails := (Lookup.state_eq_failed_iff timed ran).1 state
      rw [Lookup.result?, state, Lookup.faults_eq_of_failed timed ran fails]
      rfl
    · exact fun fee => Lookup.state_eq_succeeded_iff timed ran
  · intro provider name txId done
    obtain ⟨contacts, after, outcome, ended⟩ :=
      attempts_noting provider txId 4 done {} rfl rfl (by decide) rfl
    refine ⟨?_, fun fuel enough => by rw [ended fuel enough, ended 4 (Nat.le_refl 4)]⟩
    have looked : (lookUp (noting provider) name txId).run done
        = pure (((after.result? txId name).getD (.error .interrupted)).mapError .refused,
          done ++ contacts) := by
      rw [lookUp, StateT.run_bind, ended maxAttempts.toNat (Nat.le_refl 4)]
      rfl
    cases outcome with
    | fee causes fee few succeeded =>
      refine .inl ⟨causes, fee, few, ?_⟩
      rw [looked, Lookup.result?, succeeded, List.append_assoc]
      rfl
    | failure causes cause all last failed counted =>
      refine .inr ⟨causes, cause, all, last, ?_⟩
      rw [looked, Lookup.result?, failed, counted]
      rfl

/-- Two failures arrive while the timer runs, and a fee after the last run-out. -/
theorem retries_are_bounded_among_late_answers :
    let events : List LookupEvent := [.failure (.status 500), .failure (.status 501), .timer,
      .failure (.status 502), .timer, .failure (.status 503), .failure (.status 504), .timer,
      .failure (.task "down"), .timer, .success 7]
    Lookup.Timed events ∧ Lookup.waits events = [1, 2, 3, 4]
      ∧ ∃ answers l, ({} : Lookup).run events = .ok (answers, l)
        ∧ l.state = .failed (.task "down") ∧ Lookup.FailsWith (.task "down") events
        ∧ l.result? "t" "p" = some (.error (.permanent "t" "p" 4 (.task "down"))) := by
  intro events
  have timed : Lookup.Timed events := by decide
  obtain ⟨⟨answers, l, ran, -, -, -, failed, reported, -⟩, -⟩ := retries_are_bounded events timed
  have state : l.state = .failed (.task "down") := by
    cases ran
    rfl
  exact ⟨timed, rfl, answers, l, ran, state, (failed _).1 state, reported _ state _ _⟩

end TokenLedger.Fee
