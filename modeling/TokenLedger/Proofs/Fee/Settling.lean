import TokenLedger.Fee.Lookup
import TokenLedger.Proofs.Steps

/-!
How a lookup settles. It goes through any events as long as a word counts the run-outs of the timer
among them (`exists_run`). Whatever arrives in whatever order, it completes with the event that
settles it and with no other; then its state stays as it is and all else is ignored
(`completes_once`).
-/

namespace TokenLedger.Fee.Lookup

/-- What comes of some events: what is to be done after each, and the lookup after them all. -/
def run (l : Lookup) : List LookupEvent → Except Overflow (List Transition × Lookup)
  | [] => .ok ([], l)
  | e :: events => do
    let (answer, l) ← l.step e
    let (answers, l) ← l.run events
    return (answer :: answers, l)

variable {l after : Lookup} {e : LookupEvent} {events : List LookupEvent} {answer : Transition}
  {answers : List Transition}

theorem run_cons_eq_ok_iff :
    l.run (e :: events) = .ok (answers, after)
      ↔ ∃ answer next later, l.step e = .ok (answer, next) ∧ next.run events = .ok (later, after)
        ∧ answers = answer :: later := by
  constructor
  · intro ran
    obtain ⟨⟨answer, next⟩, stepped, rest⟩ := bind_eq_ok_iff.1 ran
    obtain ⟨⟨later, last⟩, ended, same⟩ := bind_eq_ok_iff.1 rest
    cases same
    exact ⟨answer, next, later, stepped, ended, rfl⟩
  · rintro ⟨answer, next, later, stepped, ended, rfl⟩
    exact bind_eq_ok_iff.2 ⟨_, stepped, bind_eq_ok_iff.2 ⟨_, ended, rfl⟩⟩

theorem run_append_eq_ok_iff {before later : List LookupEvent} :
    l.run (before ++ later) = .ok (answers, after)
      ↔ ∃ first mid rest, l.run before = .ok (first, mid) ∧ mid.run later = .ok (rest, after)
        ∧ answers = first ++ rest := by
  induction before generalizing l answers with
  | nil =>
    constructor
    · exact fun ran => ⟨[], l, answers, rfl, ran, rfl⟩
    · rintro ⟨_, _, rest, ran, ended, rfl⟩
      cases ran
      exact ended
  | cons e before ih =>
    simp only [List.cons_append, run_cons_eq_ok_iff, ih]
    constructor
    · rintro ⟨answer, next, _, stepped, ⟨first, mid, rest, ran, ended, rfl⟩, rfl⟩
      exact ⟨answer :: first, mid, rest, ⟨answer, next, first, stepped, ran, rfl⟩, ended, rfl⟩
    · rintro ⟨_, mid, rest, ⟨answer, next, first, stepped, ran, rfl⟩, ended, rfl⟩
      exact ⟨answer, next, first ++ rest, stepped, ⟨first, mid, rest, ran, ended, rfl⟩, rfl⟩

/-! ## One event -/

/-- What an event does to a lookup that has settled. -/
inductive Overlooks (l : Lookup) : LookupEvent → Lookup → Prop where
  | answer {e : LookupEvent} (other : e ≠ .timer) : Overlooks l e l
  | timer {faults : UInt32} (counted : faults.toNat = l.faults.toNat + 1) :
    Overlooks l .timer { l with timerArmed := false, faults }

theorem overlooks_step (settled : l.isSettled = true) (stepped : l.step e = .ok (answer, after)) :
    answer = .ignored ∧ l.Overlooks e after := by
  cases e with
  | success fee =>
    rw [step, onSuccess, if_pos settled] at stepped
    cases stepped
    exact ⟨rfl, .answer nofun⟩
  | failure e =>
    rw [step, onFailure, settled, Bool.true_or, if_pos rfl] at stepped
    cases stepped
    exact ⟨rfl, .answer nofun⟩
  | timer =>
    obtain ⟨faults, counted, stepped⟩ := bind_eq_ok_iff.1 stepped
    have still : ({ l with timerArmed := false, faults } : Lookup).isSettled = true := settled
    rw [if_pos still] at stepped
    cases stepped
    exact ⟨rfl, .timer (oneMore_eq_ok_iff.1 counted)⟩

theorem step_of_settled (settled : l.isSettled = true) (stepped : l.step e = .ok (answer, after)) :
    answer = .ignored ∧ after.state = l.state := by
  obtain ⟨ignored, overlooks⟩ := overlooks_step settled stepped
  cases overlooks with
  | answer other => exact ⟨ignored, rfl⟩
  | timer counted => exact ⟨ignored, rfl⟩

theorem isSettled_step (settled : l.isSettled = true) (stepped : l.step e = .ok (answer, after)) :
    after.isSettled = true := by
  rw [isSettled, (step_of_settled settled stepped).2]
  exact settled

/-- What an event does to a lookup that has not settled. -/
inductive Advances (l : Lookup) : LookupEvent → Transition → Lookup → Prop where
  | succeed (fee : UInt64) : Advances l (.success fee) .complete { l with state := .succeeded fee }
  | overlook (e : ProviderError) (armed : l.timerArmed = true) :
    Advances l (.failure e) .ignored l
  | wait (e : ProviderError) (idle : l.timerArmed = false) {units : UInt32}
      (longer : units.toNat = l.faults.toNat + 1) :
    Advances l (.failure e) (.retryAfter units)
      { l with timerArmed := true, lastError? := some e }
  | again {faults attempt : UInt32} (counted : faults.toNat = l.faults.toNat + 1)
      (few : faults < maxAttempts) (next : attempt.toNat = faults.toNat + 1) :
    Advances l .timer .reissue { l with timerArmed := false, faults, state := .pending attempt }
  | fail {faults : UInt32} (counted : faults.toNat = l.faults.toNat + 1)
      (enough : maxAttempts ≤ faults) :
    Advances l .timer .complete
      { l with
        timerArmed := false, faults
        state := .failed (l.lastError?.getD (.task "no error recorded")) }

theorem advances_step (pending : l.isSettled = false) (stepped : l.step e = .ok (answer, after)) :
    l.Advances e answer after := by
  cases e with
  | success fee =>
    rw [step, onSuccess, if_neg (Bool.eq_false_iff.1 pending)] at stepped
    cases stepped
    exact .succeed fee
  | failure e =>
    rw [step, onFailure, pending, Bool.false_or] at stepped
    by_cases armed : l.timerArmed = true
    · rw [if_pos armed] at stepped
      cases stepped
      exact .overlook e armed
    · rw [if_neg armed] at stepped
      obtain ⟨units, longer, same⟩ := bind_eq_ok_iff.1 stepped
      cases same
      exact .wait e (Bool.eq_false_iff.2 armed) (oneMore_eq_ok_iff.1 longer)
  | timer =>
    obtain ⟨faults, counted, stepped⟩ := bind_eq_ok_iff.1 stepped
    have still : ({ l with timerArmed := false, faults } : Lookup).isSettled ≠ true :=
      Bool.eq_false_iff.1 pending
    rw [if_neg still] at stepped
    by_cases few : faults < maxAttempts
    · rw [if_pos few] at stepped
      obtain ⟨attempt, next, same⟩ := bind_eq_ok_iff.1 stepped
      cases same
      exact .again (oneMore_eq_ok_iff.1 counted) few (oneMore_eq_ok_iff.1 next)
    · rw [if_neg few] at stepped
      cases stepped
      exact .fail (oneMore_eq_ok_iff.1 counted) (UInt32.not_lt.1 few)

theorem Advances.complete_iff (pending : l.isSettled = false)
    (advances : l.Advances e answer after) : answer = .complete ↔ after.isSettled = true := by
  cases advances with
  | succeed fee => exact iff_of_true rfl rfl
  | overlook e armed => exact iff_of_false nofun (Bool.eq_false_iff.1 pending)
  | wait e idle longer => exact iff_of_false nofun (Bool.eq_false_iff.1 pending)
  | again counted few next => exact iff_of_false nofun nofun
  | fail counted enough => exact iff_of_true rfl rfl

theorem Advances.ignored_iff (advances : l.Advances e answer after) :
    answer = .ignored ↔ (∃ cause, e = .failure cause) ∧ l.timerArmed = true := by
  cases advances with
  | succeed fee => exact iff_of_false nofun fun ⟨⟨_, same⟩, _⟩ => nomatch same
  | overlook e armed => exact iff_of_true rfl ⟨⟨e, rfl⟩, armed⟩
  | wait e idle longer => exact iff_of_false nofun fun ⟨_, armed⟩ => Bool.eq_false_iff.1 idle armed
  | again counted few next => exact iff_of_false nofun fun ⟨⟨_, same⟩, _⟩ => nomatch same
  | fail counted enough => exact iff_of_false nofun fun ⟨⟨_, same⟩, _⟩ => nomatch same

theorem step_complete_iff (stepped : l.step e = .ok (answer, after)) :
    answer = .complete ↔ l.isSettled = false ∧ after.isSettled = true := by
  cases settled : l.isSettled with
  | false => exact ((advances_step settled stepped).complete_iff settled).trans (by simp)
  | true =>
    rw [(step_of_settled settled stepped).1]
    exact iff_of_false nofun fun ⟨same, _⟩ => nomatch same

/-- Every run-out of the timer is counted, and nothing else. -/
theorem faults_step (stepped : l.step e = .ok (answer, after)) :
    after.faults.toNat = l.faults.toNat + if e = .timer then 1 else 0 := by
  cases settled : l.isSettled with
  | true =>
    cases (overlooks_step settled stepped).2 with
    | answer other => rw [if_neg other, Nat.add_zero]
    | timer counted => rw [if_pos rfl, counted]
  | false =>
    cases advances_step settled stepped with
    | succeed fee => rw [if_neg nofun, Nat.add_zero]
    | overlook e armed => rw [if_neg nofun, Nat.add_zero]
    | wait e idle longer => rw [if_neg nofun, Nat.add_zero]
    | again counted few next => rw [if_pos rfl, counted]
    | fail counted enough => rw [if_pos rfl, counted]

/-! ## Whether there is room for an event -/

/-- A lookup that has not settled has attempts left. -/
def AttemptsLeft (l : Lookup) : Prop := l.isSettled = false → l.faults < maxAttempts

theorem AttemptsLeft.step (left : l.AttemptsLeft) (stepped : l.step e = .ok (answer, after)) :
    after.AttemptsLeft := by
  intro pending
  cases settled : l.isSettled with
  | true => exact absurd (isSettled_step settled stepped) (Bool.eq_false_iff.1 pending)
  | false =>
    cases advances_step settled stepped with
    | succeed fee => cases pending
    | overlook e armed => exact left settled
    | wait e idle longer => exact left settled
    | again counted few next => exact few
    | fail counted enough => cases pending

theorem exists_oneMore_of_few {count : UInt32} (few : count < maxAttempts) :
    ∃ next, oneMore count = .ok next := by
  have below : count.toNat < maxAttempts.toNat := UInt32.lt_iff_toNat_lt.1 few
  have bound : maxAttempts.toNat < UInt32.size := maxAttempts.toNat_lt
  exact exists_oneMore (by omega)

/-- An event is gone through if there is room for it in the count. -/
theorem exists_step (left : l.AttemptsLeft)
    (room : l.faults.toNat + (if e = .timer then 1 else 0) < UInt32.size) :
    ∃ answer after, l.step e = .ok (answer, after) := by
  cases e with
  | success fee => exact ⟨_, _, rfl⟩
  | failure e =>
    rw [step, onFailure]
    by_cases deaf : (l.isSettled || l.timerArmed) = true
    · exact ⟨_, _, if_pos deaf⟩
    · have pending : l.isSettled = false := by
        cases settled : l.isSettled with
        | false => rfl
        | true => exact absurd (by rw [settled, Bool.true_or]) deaf
      obtain ⟨units, longer⟩ := exists_oneMore_of_few (left pending)
      rw [if_neg deaf, longer]
      exact ⟨_, _, rfl⟩
  | timer =>
    obtain ⟨faults, counted⟩ := exists_oneMore room
    rw [step, onTimer, counted]
    by_cases settled : ({ l with timerArmed := false, faults } : Lookup).isSettled = true
    · exact ⟨_, _, if_pos settled⟩
    · by_cases few : faults < maxAttempts
      · obtain ⟨attempt, next⟩ := exists_oneMore_of_few few
        exact ⟨_, _, (if_neg settled).trans ((if_pos few).trans (by rw [next]; rfl))⟩
      · exact ⟨_, _, (if_neg settled).trans (if_neg few)⟩

/-! ## Any events -/

theorem faults_run (ran : l.run events = .ok (answers, after)) :
    after.faults.toNat = l.faults.toNat + events.count .timer := by
  induction events generalizing l answers with
  | nil =>
    cases ran
    rfl
  | cons e events ih =>
    obtain ⟨answer, next, later, stepped, ended, -⟩ := run_cons_eq_ok_iff.1 ran
    rw [ih ended, faults_step stepped, List.count_cons]
    simp only [beq_iff_eq]
    omega

/-- The count of a fresh lookup, which a word holds. -/
theorem faults_fresh (ran : ({} : Lookup).run events = .ok (answers, after)) :
    after.faults.toNat = events.count .timer :=
  (faults_run ran).trans (Nat.zero_add _)

theorem count_timer_lt (ran : ({} : Lookup).run events = .ok (answers, after)) :
    events.count .timer < UInt32.size :=
  faults_fresh ran ▸ after.faults.toNat_lt

/-- Events are gone through if a word counts the run-outs of the timer with those among them. -/
theorem exists_run (left : l.AttemptsLeft)
    (room : l.faults.toNat + events.count .timer < UInt32.size) :
    ∃ answers after, l.run events = .ok (answers, after) := by
  induction events generalizing l with
  | nil => exact ⟨[], l, rfl⟩
  | cons e events ih =>
    rw [List.count_cons] at room
    simp only [beq_iff_eq] at room
    obtain ⟨answer, next, stepped⟩ := exists_step left (e := e) (by omega)
    obtain ⟨later, after, ended⟩ :=
      ih (left.step stepped) (by rw [faults_step stepped]; omega)
    exact ⟨answer :: later, after, run_cons_eq_ok_iff.2 ⟨_, _, _, stepped, ended, rfl⟩⟩

theorem exists_run_fresh (fewer : events.count .timer < UInt32.size) :
    ∃ answers after, ({} : Lookup).run events = .ok (answers, after) :=
  exists_run (fun _ => by decide) (by rwa [UInt32.toNat_zero, Nat.zero_add])

theorem run_of_settled (settled : l.isSettled = true) (ran : l.run events = .ok (answers, after)) :
    after.state = l.state ∧ ∀ answer ∈ answers, answer = .ignored := by
  induction events generalizing l answers with
  | nil =>
    cases ran
    exact ⟨rfl, nofun⟩
  | cons e events ih =>
    obtain ⟨answer, next, later, stepped, ended, rfl⟩ := run_cons_eq_ok_iff.1 ran
    obtain ⟨ignored, same⟩ := step_of_settled settled stepped
    obtain ⟨last, others⟩ := ih (isSettled_step settled stepped) ended
    exact ⟨last.trans same, List.forall_mem_cons.2 ⟨ignored, others⟩⟩

theorem isSettled_run (settled : l.isSettled = true) (ran : l.run events = .ok (answers, after)) :
    after.isSettled = true := by
  rw [isSettled, (run_of_settled settled ran).1]
  exact settled

theorem count_complete (pending : l.isSettled = false) (ran : l.run events = .ok (answers, after)) :
    answers.count .complete = if after.isSettled = true then 1 else 0 := by
  induction events generalizing l answers with
  | nil =>
    cases ran
    rw [pending]
    rfl
  | cons e events ih =>
    obtain ⟨answer, next, later, stepped, ended, rfl⟩ := run_cons_eq_ok_iff.1 ran
    rw [List.count_cons]
    cases settled : next.isSettled with
    | false =>
      have other : (answer == Transition.complete) = false :=
        beq_eq_false_iff_ne.2 fun complete =>
          Bool.eq_false_iff.1 settled ((step_complete_iff stepped).1 complete).2
      simp only [ih settled ended, other, Bool.false_eq_true, if_false, Nat.add_zero]
    | true =>
      have complete := (step_complete_iff stepped).2 ⟨pending, settled⟩
      have none : later.count .complete = 0 := by
        refine List.count_eq_zero.2 fun member => ?_
        cases (run_of_settled settled ended).2 .complete member
      rw [none, complete, isSettled_run settled ended]
      rfl

theorem length_run (ran : l.run events = .ok (answers, after)) :
    answers.length = events.length := by
  induction events generalizing l answers with
  | nil =>
    cases ran
    rfl
  | cons e events ih =>
    obtain ⟨answer, next, later, -, ended, rfl⟩ := run_cons_eq_ok_iff.1 ran
    rw [List.length_cons, ih ended, List.length_cons]

/-- Whatever arrives, with fewer run-outs of the timer than a word counts, a lookup goes through all
of it. It completes once if it settles, and else never. The event that completes it is the one that
settles it; from then on its state stays and all else is ignored. Before that, failures are ignored
while the timer runs, and nothing else is. -/
theorem completes_once (events : List LookupEvent) (fewer : events.count .timer < UInt32.size) :
    ∃ answers after, ({} : Lookup).run events = .ok (answers, after)
      ∧ (answers.count .complete = if after.isSettled = true then 1 else 0)
      ∧ (∀ before e later, events = before ++ e :: later →
          ∃ first l answer next, ({} : Lookup).run before = .ok (first, l)
            ∧ l.step e = .ok (answer, next) ∧ answers[before.length]? = some answer
            ∧ (answer = .complete ↔ l.isSettled = false ∧ next.isSettled = true)
            ∧ (l.isSettled = false →
                (answer = .ignored ↔ (∃ cause, e = .failure cause) ∧ l.timerArmed = true)))
      ∧ (∀ before later, events = before ++ later →
          ∃ first l rest, ({} : Lookup).run before = .ok (first, l) ∧ answers = first ++ rest
            ∧ (l.isSettled = true → after.state = l.state ∧ ∀ answer ∈ rest, answer = .ignored))
      ∧ after.faults.toNat = events.count .timer := by
  obtain ⟨answers, after, ran⟩ := exists_run_fresh fewer
  refine ⟨answers, after, ran, count_complete rfl ran, ?_, ?_, faults_fresh ran⟩
  · rintro before e later rfl
    obtain ⟨first, l, rest, earlier, ended, rfl⟩ := run_append_eq_ok_iff.1 ran
    obtain ⟨answer, next, others, stepped, -, rfl⟩ := run_cons_eq_ok_iff.1 ended
    refine ⟨first, l, answer, next, earlier, stepped, ?_, step_complete_iff stepped,
      fun pending => (advances_step pending stepped).ignored_iff⟩
    rw [← length_run earlier, List.getElem?_append_right (Nat.le_refl _), Nat.sub_self]
    rfl
  · rintro before later rfl
    obtain ⟨first, l, rest, earlier, ended, rfl⟩ := run_append_eq_ok_iff.1 ran
    exact ⟨first, l, rest, earlier, rfl, fun settled => run_of_settled settled ended⟩

/-- A failure arrives while the timer runs, and the timer and another fee come after the fee. -/
theorem completes_once_among_late_events :
    let events : List LookupEvent := [.failure (.task "down"), .failure (.task "down"), .timer,
      .success 5, .timer, .success 6]
    events.count .timer < UInt32.size
      ∧ ∃ answers after, ({} : Lookup).run events = .ok (answers, after)
        ∧ answers = [.retryAfter 1, .ignored, .reissue, .complete, .ignored, .ignored]
        ∧ answers.count .complete = 1 ∧ after.faults.toNat = 2 := by
  intro events
  have fewer : events.count .timer < UInt32.size := by decide
  obtain ⟨answers, after, ran, once, -, -, counted⟩ := completes_once events fewer
  refine ⟨fewer, answers, after, ran, ?_, ?_, counted⟩
  · cases ran
    rfl
  · cases ran
    exact once

end TokenLedger.Fee.Lookup
