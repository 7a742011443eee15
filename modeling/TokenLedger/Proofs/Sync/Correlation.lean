import TokenLedger.Proofs.Sync.Ascending
import TokenLedger.Sync.Tracker

/-!
What a tracker answers after any calls. A response is accepted just if its number is awaited and its
blocks go up from the height that was asked for; awaited is a number since it was tracked last, until
anything else is done about it (`accepted_iff_awaited`). The invariant behind this is that the requests
that are outstanding are those that are awaited by what has happened so far.
-/

namespace TokenLedger.Sync

/-- A call on a tracker. For a new request some numbers are drawn until one is free. -/
inductive Call where
  | track (request : Request)
  | create (fromHeight : UInt64) (draws : List Int32)
  | cancel (nonce : Int32)
  | accept (response : Response)

/-- What came of a call. -/
inductive Event where
  | tracked (request : Request)
  | cancelled (nonce : Int32) (waiting : Bool)
  | answered (response : Response) (answer : Except SyncError Response)

namespace Event

/-- The number that an event is about. -/
def nonce : Event → Int32
  | tracked request => request.nonce
  | cancelled nonce _ => nonce
  | answered response _ => response.nonce

/-- The height from which blocks are awaited after an event, under the number that it is about. -/
def awaited? : Event → Option UInt64
  | tracked request => some request.fromHeight
  | cancelled _ _ => none
  | answered _ _ => none

/-- Whether a request is tracked. -/
def isTracking : Event → Bool
  | tracked _ => true
  | _ => false

/-- Whether a response is accepted. -/
def isAcceptance : Event → Bool
  | answered _ (.ok _) => true
  | _ => false

theorem awaited?_eq_some_iff {e : Event} {height : UInt64} :
    e.awaited? = some height ↔ e = tracked ⟨height, e.nonce⟩ := by
  cases e with
  | tracked request =>
    constructor
    · intro same
      rw [← Option.some.inj same, nonce]
    · intro same
      rw [same, awaited?]
  | cancelled nonce waiting => exact ⟨nofun, nofun⟩
  | answered response answer => exact ⟨nofun, nofun⟩

theorem awaited?_eq_none {e : Event} (other : e.isTracking = false) : e.awaited? = none := by
  cases e with
  | tracked request => cases other
  | cancelled nonce waiting => rfl
  | answered response answer => rfl

end Event

/-- Blocks from a height on are awaited under a number: a request for them was tracked, and nothing has
happened under this number since. -/
def Awaits (log : List Event) (nonce : Int32) (height : UInt64) : Prop :=
  ∃ before after, log = before ++ .tracked ⟨height, nonce⟩ :: after ∧ ∀ e ∈ after, e.nonce ≠ nonce

theorem not_awaits_nil {nonce : Int32} {height : UInt64} : ¬ Awaits [] nonce height := by
  rintro ⟨before, after, nothing, -⟩
  cases (List.append_eq_nil_iff.1 nothing.symm).2

theorem awaits_cons_iff {e : Event} {log : List Event} {nonce : Int32} {height : UInt64} :
    Awaits (e :: log) nonce height ↔ Awaits log nonce height
      ∨ e = .tracked ⟨height, nonce⟩ ∧ ∀ later ∈ log, later.nonce ≠ nonce := by
  constructor
  · rintro ⟨before, after, whole, quiet⟩
    cases before with
    | nil =>
      obtain ⟨rfl, rfl⟩ := List.cons.inj whole
      exact .inr ⟨rfl, quiet⟩
    | cons first before =>
      obtain ⟨rfl, rfl⟩ := List.cons.inj whole
      exact .inl ⟨before, after, rfl, quiet⟩
  · rintro (⟨before, after, rfl, quiet⟩ | ⟨rfl, quiet⟩)
    · exact ⟨e :: before, after, rfl, quiet⟩
    · exact ⟨[], log, rfl, quiet⟩

namespace Tracker

/-- Makes a call. A new request is not made as long as all numbers that were drawn are taken. -/
def call (t : Tracker) : Call → Option (Event × Tracker)
  | .track request => some (.tracked request, t.track request)
  | .create fromHeight draws =>
    (t.create? fromHeight draws).map fun (request, t) => (.tracked request, t)
  | .cancel nonce => some (.cancelled nonce (t.cancel nonce).1, (t.cancel nonce).2)
  | .accept response => some (.answered response (t.accept response).1, (t.accept response).2)

/-- Makes calls one after the other. -/
def run (t : Tracker) : List Call → Option (List Event × Tracker)
  | [] => some ([], t)
  | c :: calls => do
    let (e, t) ← t.call c
    let (log, t) ← t.run calls
    return (e :: log, t)

section Step

variable {t t' : Tracker} {c : Call} {e : Event} {nonce : Int32}

theorem accept_of_unknown {response : Response}
    (unknown : t.outstanding.find? response.nonce = none) :
    t.accept response = (.error (.unknownNonce response.nonce), t) := by
  simp only [accept, unknown]

theorem accept_of_known {response : Response} {height : UInt64}
    (known : t.outstanding.find? response.nonce = some height) :
    t.accept response = ((checkAscending height response.blocks).map fun _ => response,
      { outstanding := t.outstanding.erase response.nonce }) := by
  simp only [accept, known]
  cases checkAscending height response.blocks with
  | ok _ => rfl
  | error e => rfl

theorem accept_eq_ok_iff {response : Response} :
    (∃ accepted, (t.accept response).1 = .ok accepted)
      ↔ ∃ height, t.outstanding.find? response.nonce = some height
        ∧ Ascends height response.blocks := by
  cases found : t.outstanding.find? response.nonce with
  | none =>
    rw [accept_of_unknown found]
    exact iff_of_false (fun ⟨_, same⟩ => nomatch same) fun ⟨_, same, _⟩ => nomatch same
  | some height =>
    simp only [accept_of_known found, ← checkAscending_eq_ok_iff, Option.some.injEq, exists_eq_left']
    cases checkAscending height response.blocks with
    | ok _ => exact iff_of_true ⟨response, rfl⟩ rfl
    | error e => exact iff_of_false (fun ⟨_, same⟩ => nomatch same) nofun

theorem eq_of_accept_eq_ok {response accepted : Response}
    (done : (t.accept response).1 = .ok accepted) : accepted = response := by
  cases found : t.outstanding.find? response.nonce with
  | none =>
    rw [accept_of_unknown found] at done
    cases done
  | some height =>
    rw [accept_of_known found] at done
    cases checked : checkAscending height response.blocks with
    | ok _ =>
      rw [checked] at done
      exact (Except.ok.inj done).symm
    | error e =>
      rw [checked] at done
      cases done

theorem accept_eq_error {response : Response} {height : UInt64}
    (known : t.outstanding.find? response.nonce = some height)
    (broken : ¬ Ascends height response.blocks) :
    ∃ before b rest, response.blocks = before ++ b :: rest ∧ Ascends height before
      ∧ ¬ Ascends height (before ++ [b]) ∧ (t.accept response).1 = .error (.outOfOrder b.height) := by
  rw [accept_of_known known]
  cases checked : checkAscending height response.blocks with
  | ok _ => exact absurd (checkAscending_eq_ok_iff.1 checked) broken
  | error e =>
    obtain ⟨before, b, rest, whole, fine, bad, rfl⟩ := checkAscending_eq_error checked
    exact ⟨before, b, rest, whole, fine, bad, rfl⟩

/-- A response ends the wait for it, whatever it is. -/
theorem find?_accept (response : Response) :
    (t.accept response).2.outstanding.find? nonce
      = if nonce = response.nonce then none else t.outstanding.find? nonce := by
  cases found : t.outstanding.find? response.nonce with
  | none =>
    rw [accept_of_unknown found]
    by_cases same : nonce = response.nonce
    · rw [if_pos same, same, found]
    · rw [if_neg same]
  | some height => rw [accept_of_known found, SortedMap.find?_erase]

/-- A call settles what is awaited under its number and changes nothing under any other. -/
theorem find?_call (called : t.call c = some (e, t')) :
    t'.outstanding.find? nonce
      = if nonce = e.nonce then e.awaited? else t.outstanding.find? nonce := by
  cases c with
  | track request =>
    obtain ⟨rfl, rfl⟩ := Prod.mk.inj (Option.some.inj called)
    exact SortedMap.find?_insert ..
  | create fromHeight draws =>
    obtain ⟨⟨request, after⟩, created, same⟩ := Option.map_eq_some_iff.1 called
    obtain ⟨rfl, rfl⟩ := Prod.mk.inj same
    obtain ⟨drawn, -, same⟩ := Option.map_eq_some_iff.1 created
    obtain ⟨rfl, rfl⟩ := Prod.mk.inj same
    exact SortedMap.find?_insert ..
  | cancel other =>
    obtain ⟨rfl, rfl⟩ := Prod.mk.inj (Option.some.inj called)
    exact SortedMap.find?_erase ..
  | accept response =>
    obtain ⟨rfl, rfl⟩ := Prod.mk.inj (Option.some.inj called)
    exact find?_accept response

/-- Only what is awaited is accepted. -/
theorem known_of_isAcceptance (called : t.call c = some (e, t')) (accepted : e.isAcceptance = true) :
    t.outstanding.find? e.nonce ≠ none := by
  cases c with
  | track request =>
    obtain ⟨rfl, rfl⟩ := Prod.mk.inj (Option.some.inj called)
    cases accepted
  | create fromHeight draws =>
    obtain ⟨made, -, same⟩ := Option.map_eq_some_iff.1 called
    obtain ⟨rfl, rfl⟩ := Prod.mk.inj same
    cases accepted
  | cancel other =>
    obtain ⟨rfl, rfl⟩ := Prod.mk.inj (Option.some.inj called)
    cases accepted
  | accept response =>
    obtain ⟨rfl, rfl⟩ := Prod.mk.inj (Option.some.inj called)
    intro unknown
    rw [accept_of_unknown unknown] at accepted
    cases accepted

end Step

section Run

variable {t t' : Tracker} {calls : List Call} {log : List Event} {nonce : Int32}

theorem run_cons_iff {c : Call} :
    t.run (c :: calls) = some (log, t') ↔ ∃ e mid later, t.call c = some (e, mid)
      ∧ mid.run calls = some (later, t') ∧ log = e :: later := by
  constructor
  · intro whole
    obtain ⟨⟨e, mid⟩, called, others⟩ := Option.bind_eq_some_iff.1 whole
    obtain ⟨⟨later, last⟩, ran, same⟩ := Option.bind_eq_some_iff.1 others
    obtain ⟨rfl, rfl⟩ := Prod.mk.inj (Option.some.inj same)
    exact ⟨e, mid, later, called, ran, rfl⟩
  · rintro ⟨e, mid, later, called, ran, rfl⟩
    exact Option.bind_eq_some_iff.2 ⟨_, called, Option.bind_eq_some_iff.2 ⟨_, ran, rfl⟩⟩

/-- Outstanding is what is awaited by now, and what was outstanding before and was left alone. -/
theorem find?_run {height : UInt64} (ran : t.run calls = some (log, t')) :
    t'.outstanding.find? nonce = some height ↔ Awaits log nonce height
      ∨ t.outstanding.find? nonce = some height ∧ ∀ e ∈ log, e.nonce ≠ nonce := by
  induction calls generalizing t log with
  | nil =>
    obtain ⟨rfl, rfl⟩ := Prod.mk.inj (Option.some.inj ran)
    constructor
    · exact fun found => .inr ⟨found, nofun⟩
    · rintro (awaits | ⟨found, -⟩)
      · exact absurd awaits not_awaits_nil
      · exact found
  | cons c calls ih =>
    obtain ⟨e, mid, later, called, others, rfl⟩ := run_cons_iff.1 ran
    -- What the first call leaves counts as long as no later one is under the same number.
    rw [ih others, find?_call called, awaits_cons_iff, List.forall_mem_cons]
    by_cases same : e.nonce = nonce
    · subst same
      rw [if_pos rfl, Event.awaited?_eq_some_iff]
      simp only [ne_eq, not_true_eq_false, false_and, and_false, or_false]
    · have other : e ≠ .tracked ⟨height, nonce⟩ := fun made => same (made ▸ rfl)
      rw [if_neg (Ne.symm same)]
      simp only [other, false_and, or_false, ne_eq, same, not_false_eq_true, true_and]

theorem exists_of_run_append {before after : List Event}
    (ran : t.run calls = some (before ++ after, t')) :
    ∃ calls₁ calls₂ mid, t.run calls₁ = some (before, mid)
      ∧ mid.run calls₂ = some (after, t') := by
  induction before generalizing t calls with
  | nil => exact ⟨[], calls, t, rfl, ran⟩
  | cons e before ih =>
    cases calls with
    | nil => cases ran
    | cons c calls =>
      obtain ⟨first, mid, later, called, others, same⟩ := run_cons_iff.1 ran
      obtain ⟨rfl, rfl⟩ := List.cons.inj same
      obtain ⟨calls₁, calls₂, middle, ran₁, ran₂⟩ := ih others
      exact ⟨c :: calls₁, calls₂, middle, run_cons_iff.2 ⟨e, mid, before, called, ran₁, rfl⟩, ran₂⟩

/-- Without a new request there is at most one more acceptance, and none if nothing was awaited. -/
theorem countP_isAcceptance_le (ran : t.run calls = some (log, t'))
    (noTracking : ∀ e ∈ log, e.nonce = nonce → e.isTracking = false) :
    log.countP (fun e => e.nonce = nonce ∧ e.isAcceptance)
      ≤ if t.outstanding.find? nonce = none then 0 else 1 := by
  induction calls generalizing t log with
  | nil =>
    obtain ⟨rfl, -⟩ := Prod.mk.inj (Option.some.inj ran)
    exact Nat.zero_le _
  | cons c calls ih =>
    obtain ⟨e, mid, later, called, others, rfl⟩ := run_cons_iff.1 ran
    rw [List.forall_mem_cons] at noTracking
    have upper := ih others noTracking.2
    have left : mid.outstanding.find? nonce
        = if nonce = e.nonce then e.awaited? else t.outstanding.find? nonce := find?_call called
    rw [List.countP_cons]
    by_cases same : e.nonce = nonce
    · rw [if_pos same.symm, Event.awaited?_eq_none (noTracking.1 same)] at left
      -- Nothing is awaited any more, so there is no acceptance after this one.
      rw [if_pos left, Nat.le_zero] at upper
      rw [upper, Nat.zero_add]
      by_cases accepted : e.isAcceptance = true
      · have known := known_of_isAcceptance called accepted
        rw [same] at known
        rw [if_neg known]
        split <;> decide
      · rw [if_neg (by simp [accepted])]
        exact Nat.zero_le _
    · rw [if_neg (Ne.symm same)] at left
      rw [left] at upper
      rw [if_neg (by simp [same]), Nat.add_zero]
      exact upper

theorem find?_run_empty {height : UInt64} (ran : empty.run calls = some (log, t)) :
    t.outstanding.find? nonce = some height ↔ Awaits log nonce height := by
  rw [find?_run ran]
  exact or_iff_left fun ⟨found, _⟩ => nomatch found

end Run

/-- After any calls, a response is accepted just if it is awaited and its blocks go up from the height
that was asked for. It is handed on as it is. If it is not awaited nothing changes, and otherwise it is
awaited no more. A call changes nothing under other numbers, and between two requests under a number at
most one response is accepted. -/
theorem accepted_iff_awaited {calls : List Call} {log : List Event} {t : Tracker}
    (ran : empty.run calls = some (log, t)) :
    (∀ response : Response,
      ((∃ accepted, (t.accept response).1 = .ok accepted)
        ↔ ∃ height, Awaits log response.nonce height ∧ Ascends height response.blocks)
      ∧ (∀ accepted, (t.accept response).1 = .ok accepted → accepted = response)
      ∧ ((¬ ∃ height, Awaits log response.nonce height) →
          t.accept response = (.error (.unknownNonce response.nonce), t))
      ∧ ∀ height, Awaits log response.nonce height →
          (t.accept response).2.outstanding.find? response.nonce = none
          ∧ (¬ Ascends height response.blocks →
              ∃ before b rest, response.blocks = before ++ b :: rest ∧ Ascends height before
                ∧ ¬ Ascends height (before ++ [b])
                ∧ (t.accept response).1 = .error (.outOfOrder b.height)))
    ∧ (∀ c e t', t.call c = some (e, t') → ∀ nonce, nonce ≠ e.nonce →
        t'.outstanding.find? nonce = t.outstanding.find? nonce)
    ∧ ∀ before request between after, log = before ++ .tracked request :: between ++ after →
        (∀ e ∈ between, e.nonce = request.nonce → e.isTracking = false) →
        between.countP (fun e => e.nonce = request.nonce ∧ e.isAcceptance) ≤ 1 := by
  simp only [← find?_run_empty ran]
  refine ⟨fun response => ⟨accept_eq_ok_iff, fun _ => eq_of_accept_eq_ok, ?_, ?_⟩, ?_, ?_⟩
  · intro idle
    refine accept_of_unknown (Option.eq_none_iff_forall_ne_some.2 fun height found => ?_)
    exact idle ⟨height, found⟩
  · intro height found
    refine ⟨?_, accept_eq_error found⟩
    rw [find?_accept, if_pos rfl]
  · intro c e t' called nonce other
    rw [find?_call called, if_neg other]
  · rintro before request between after rfl noTracking
    obtain ⟨calls₁, -, last, upTo, -⟩ := exists_of_run_append ran
    obtain ⟨-, calls₂, first, -, since⟩ := exists_of_run_append upTo
    cases calls₂ with
    | nil => cases since
    | cons c calls =>
      obtain ⟨e, mid, later, -, others, same⟩ := run_cons_iff.1 since
      obtain ⟨-, rfl⟩ := List.cons.inj same
      refine Nat.le_trans (countP_isAcceptance_le others noTracking) ?_
      split <;> decide

/-- The first response comes too early and ends the wait, as does giving up; then the first request is
made again. -/
theorem accepted_after_second_request :
    let b (height : UInt64) : Block := ⟨height, "", "", []⟩
    let calls : List Call := [.track ⟨10, 5⟩, .create 20 [5, -6], .accept ⟨[b 9], 5⟩, .cancel (-6),
      .track ⟨11, 5⟩]
    let log : List Event := [.tracked ⟨10, 5⟩, .tracked ⟨20, -6⟩,
      .answered ⟨[b 9], 5⟩ (.error (.outOfOrder 9)), .cancelled (-6) true, .tracked ⟨11, 5⟩]
    ∃ t, empty.run calls = some (log, t)
      ∧ (∃ accepted, (t.accept ⟨[b 11, b 13], 5⟩).1 = .ok accepted)
      ∧ t.accept ⟨[b 20], -6⟩ = (.error (.unknownNonce (-6)), t)
      ∧ (t.accept ⟨[b 11, b 11], 5⟩).2.outstanding.find? 5 = none := by
  intro b calls log
  have ran : empty.run calls = some (log, _) := rfl
  obtain ⟨answers, -, -⟩ := accepted_iff_awaited ran
  have awaits : Awaits log 5 11 := ⟨log.take 4, [], rfl, nofun⟩
  have ascends : Ascends 11 [b 11, b 13] :=
    checkAscending_eq_ok_iff.1 rfl
  have idle : ¬ ∃ height, Awaits log (-6) height := by
    rintro ⟨height, awaits⟩
    simp [log, awaits_cons_iff, not_awaits_nil, Event.nonce] at awaits
  exact ⟨_, ran, (answers ⟨[b 11, b 13], 5⟩).1.2 ⟨11, awaits, ascends⟩,
    (answers ⟨[b 20], -6⟩).2.2.1 idle, ((answers ⟨[b 11, b 11], 5⟩).2.2.2 11 awaits).1⟩

end Tracker

end TokenLedger.Sync
