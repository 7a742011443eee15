import TokenLedger.Proofs.Fee.Settling

/-!
What a settled lookup reports. A fee is reported alike whatever else arrives. A failure is reported
with the number of attempts, which is read off the count of run-outs, and a timer that runs out late
is counted as well: every one of them adds an attempt to the report, and nothing else alters it
(`result_kept_iff`). The one after the last that a word counts stops the lookup.
-/

namespace TokenLedger.Fee

/-- A result with more attempts counted in it. -/
def recounted (more : Nat) : Except LookupError UInt64 → Except LookupError UInt64
  | .ok fee => .ok fee
  | .error (.permanent txId provider attempts last) =>
    .error (.permanent txId provider (attempts + UInt32.ofNat more) last)
  | .error .interrupted => .error .interrupted

namespace Lookup

/-- What a fresh lookup reports after some events. -/
def report (txId provider : String) (events : List LookupEvent) :
    Except Overflow (Option (Except LookupError UInt64)) := do
  let (_, l) ← ({} : Lookup).run events
  return l.result? txId provider

variable {l after : Lookup} {e : LookupEvent} {events later : List LookupEvent}
  {answers : List Transition} {o : Overflow} {txId provider : String}
  {r : Except LookupError UInt64}

/-! ## Where a lookup stops -/

theorem oneMore_eq_error {count : UInt32} (full : oneMore count = .error o) : o = .sum := by
  unfold oneMore at full
  split at full
  · cases full
  · cases full
    rfl

theorem step_eq_error (stopped : l.step e = .error o) : o = .sum := by
  cases e with
  | success fee => cases stopped
  | failure e =>
    rw [step, onFailure] at stopped
    split at stopped
    · cases stopped
    · obtain full | ⟨units, -, rest⟩ := bind_eq_error_iff.1 stopped
      · exact oneMore_eq_error full
      · cases rest
  | timer =>
    obtain full | ⟨faults, -, rest⟩ := bind_eq_error_iff.1 stopped
    · exact oneMore_eq_error full
    · dsimp only at rest
      split at rest
      · cases rest
      · split at rest
        · obtain full | ⟨attempt, -, rest⟩ := bind_eq_error_iff.1 rest
          · exact oneMore_eq_error full
          · cases rest
        · cases rest

theorem run_eq_error (stopped : l.run events = .error o) : o = .sum := by
  induction events generalizing l with
  | nil => cases stopped
  | cons e events ih =>
    obtain full | ⟨⟨answer, next⟩, -, rest⟩ := bind_eq_error_iff.1 stopped
    · exact step_eq_error full
    · obtain stopped | ⟨_, -, rest⟩ := bind_eq_error_iff.1 rest
      · exact ih stopped
      · cases rest

/-! ## What is reported -/

theorem report_eq_ok_iff {reported : Option (Except LookupError UInt64)} :
    report txId provider events = .ok reported
      ↔ ∃ answers l, ({} : Lookup).run events = .ok (answers, l)
        ∧ l.result? txId provider = reported := by
  constructor
  · intro told
    obtain ⟨⟨answers, l⟩, ran, same⟩ := bind_eq_ok_iff.1 told
    exact ⟨answers, l, ran, Except.ok.inj same⟩
  · rintro ⟨answers, l, ran, rfl⟩
    exact bind_eq_ok_iff.2 ⟨_, ran, rfl⟩

theorem isSettled_of_result? (reported : l.result? txId provider = some r) :
    l.isSettled = true := by
  unfold result? at reported
  unfold isSettled
  cases state : l.state with
  | pending attempt => simp [state] at reported
  | succeeded fee => rfl
  | failed e => rfl

/-- The attempts in a failure are the run-outs that were counted. -/
theorem attempts_eq_faults {id name : String} {attempts : UInt32} {last : ProviderError}
    (reported : l.result? txId provider = some (.error (.permanent id name attempts last))) :
    attempts = l.faults := by
  unfold result? at reported
  cases state : l.state with
  | pending attempt => simp [state] at reported
  | succeeded fee => simp [state] at reported
  | failed e =>
    simp only [state, Option.some.injEq, Except.error.injEq, LookupError.permanent.injEq] at reported
    exact reported.2.2.1.symm

/-- Later events leave what is reported as it is, but for the attempts in it. -/
theorem result?_run (settled : l.isSettled = true) (ran : l.run events = .ok (answers, after)) :
    after.result? txId provider
      = (l.result? txId provider).map (recounted (events.count .timer)) := by
  have counted : after.faults = l.faults + UInt32.ofNat (events.count .timer) := by
    rw [← UInt32.ofNat_toNat (x := after.faults), faults_run ran, UInt32.ofNat_add,
      UInt32.ofNat_toNat]
  rw [result?, (run_of_settled settled ran).1, counted, result?]
  cases l.state with
  | pending attempt => rfl
  | succeeded fee => rfl
  | failed e => rfl

/-- More attempts are seen in a failure alone. -/
theorem recounted_eq_iff (reported : l.result? txId provider = some r) {more : Nat}
    (small : more < UInt32.size) :
    recounted more r = r ↔ (∃ fee, r = .ok fee) ∨ more = 0 := by
  unfold result? at reported
  cases state : l.state with
  | pending attempt => simp [state] at reported
  | succeeded fee =>
    simp only [state, Option.some.injEq] at reported
    subst reported
    simp [recounted]
  | failed e =>
    simp only [state, Option.some.injEq] at reported
    subst reported
    have none : UInt32.ofNat more = 0 ↔ more = 0 := by
      rw [← UInt32.toNat_inj, UInt32.toNat_ofNat_of_lt' small, UInt32.toNat_zero]
    simp [recounted, none]

/-- What a result comes to with later events: more attempts in a failure, if a word counts them. -/
theorem report_append (reported : report txId provider events = .ok (some r)) :
    report txId provider (events ++ later)
      = if (events ++ later).count .timer < UInt32.size
        then .ok (some (recounted (later.count .timer) r)) else .error .sum := by
  obtain ⟨answers, l, ran, result⟩ := report_eq_ok_iff.1 reported
  have settled : l.isSettled = true := isSettled_of_result? result
  by_cases room : (events ++ later).count .timer < UInt32.size
  · have left : l.AttemptsLeft := fun pending => absurd settled (Bool.eq_false_iff.1 pending)
    have counted : l.faults.toNat + later.count .timer = (events ++ later).count .timer := by
      rw [faults_fresh ran, List.count_append]
    obtain ⟨more, after, ended⟩ := exists_run left (counted ▸ room)
    rw [if_pos room, report_eq_ok_iff]
    refine ⟨_, after, run_append_eq_ok_iff.2 ⟨_, l, more, ran, ended, rfl⟩, ?_⟩
    rw [result?_run settled ended, result]
    rfl
  · rw [if_neg room]
    cases told : ({} : Lookup).run (events ++ later) with
    | ok all => exact absurd (count_timer_lt told) room
    | error o =>
      rw [report, told, run_eq_error told]
      rfl

/-- Once there is a result, any later events leave it as it is exactly if it is a fee or the timer
does not run out among them. The attempts in a failure are the run-outs up to then, so it is reported
with one more attempt for each time that the timer runs out again. All of this is as long as a word
counts the run-outs: the lookup does not go beyond that, whatever it had reported. -/
theorem result_kept_iff (events later : List LookupEvent)
    (reported : report txId provider events = .ok (some r)) :
    (∀ id name attempts last, r = .error (.permanent id name attempts last) →
        attempts.toNat = events.count .timer)
      ∧ report txId provider (events ++ later)
        = (if (events ++ later).count .timer < UInt32.size
          then .ok (some (recounted (later.count .timer) r)) else .error .sum)
      ∧ (report txId provider (events ++ later) = .ok (some r)
        ↔ (∃ fee, r = .ok fee) ∧ (events ++ later).count .timer < UInt32.size ∨ .timer ∉ later) := by
  obtain ⟨_, l, ran, result⟩ := report_eq_ok_iff.1 reported
  refine ⟨?_, report_append reported, ?_⟩
  · rintro id name attempts last rfl
    rw [attempts_eq_faults result, faults_fresh ran]
  rw [report_append reported]
  have all : (events ++ later).count .timer = events.count .timer + later.count .timer :=
    List.count_append
  by_cases room : (events ++ later).count .timer < UInt32.size
  · have small : later.count .timer < UInt32.size := by omega
    rw [if_pos room, Except.ok.injEq, Option.some.injEq, recounted_eq_iff result small,
      List.count_eq_zero, and_iff_left room]
  · -- The events before did not fill the word, so it is a late timer that does.
    have before : events.count .timer < UInt32.size := count_timer_lt ran
    have late : .timer ∈ later := List.count_pos_iff.1 (by omega)
    rw [if_neg room]
    exact iff_of_false nofun fun kept => kept.elim (fun ⟨_, few⟩ => room few) fun none => none late

theorem result_kept_after_late_answers :
    let failing : List LookupEvent := [.failure (.status 500), .timer, .failure (.status 500),
      .timer, .failure (.status 500), .timer, .failure (.status 503), .timer]
    let r : Except LookupError UInt64 := .error (.permanent "t" "p" 4 (.status 503))
    report "t" "p" failing = .ok (some r)
      ∧ report "t" "p" (failing ++ [.success 7, .failure (.status 500)]) = .ok (some r) :=
  ⟨rfl, (result_kept_iff _ [.success 7, .failure (.status 500)] rfl).2.2.2 (.inr (by decide))⟩

/-- A failure that was reported is reported otherwise once the timer runs out late. -/
theorem failure_reported_anew_after_late_timer :
    let failing : List LookupEvent := [.failure (.http "connection reset"), .timer,
      .failure (.http "connection reset"), .timer, .failure (.http "connection reset"), .timer,
      .failure (.http "connection reset"), .timer]
    report "t" "p" failing
        = .ok (some (.error (.permanent "t" "p" 4 (.http "connection reset"))))
      ∧ report "t" "p" (failing ++ [.timer])
        = .ok (some (.error (.permanent "t" "p" 5 (.http "connection reset")))) :=
  ⟨rfl, rfl⟩

end Lookup

end TokenLedger.Fee
