import TokenLedger.Chain.Replay
import TokenLedger.Proofs.Chain.Run

/-!
Replays that are cut and begun again. What a replay has gone by, it goes by again without doing anything:
what was taken in now lies at or below the head, what lay there still does, and what lies below the
first height is passed over every time. A block that is refused leaves the chain as it was, so it is met
again by the same chain. So it does not matter if some of the blocks were replayed before, as far as that
went (`ending_replay_again`).
-/

namespace TokenLedger.Chain

variable {σ : Type}

/-- Whether a replay goes by a block without doing anything. -/
def PassesOver (c : Chain σ) (raw : RawBlock) : Prop :=
  c.isPast raw.height = true ∨ raw.height < c.genesis.height

/-- A later state of a chain: whatever was past is past. -/
structure Onward (c later : Chain σ) : Prop where
  genesis_eq : later.genesis = c.genesis
  past : ∀ height, c.isPast height = true → later.isPast height = true

namespace Onward

variable {c later last : Chain σ}

theorem refl (c : Chain σ) : c.Onward c := ⟨rfl, fun _ past => past⟩

theorem trans (onward : c.Onward later) (onward' : later.Onward last) : c.Onward last where
  genesis_eq := onward'.genesis_eq.trans onward.genesis_eq
  past height past := onward'.past height (onward.past height past)

theorem passesOver (onward : c.Onward later) {raw : RawBlock} (passed : c.PassesOver raw) :
    later.PassesOver raw :=
  passed.imp (onward.past raw.height) fun below => onward.genesis_eq ▸ below

end Onward

/-- Where a replay ends: the block that stops it and why, if one does, and the chain. How many blocks
were taken in is left out. -/
def ending {β : Type} (replayed : Except (β × Stop Rejection) Nat × Chain σ) :
    Option (β × Stop Rejection) × Chain σ :=
  match replayed with
  | (.ok _, c) => (none, c)
  | (.error stop, c) => (some stop, c)

theorem ending_snd {β : Type} (replayed : Except (β × Stop Rejection) Nat × Chain σ) :
    (ending replayed).2 = replayed.2 := by
  obtain ⟨answer, c⟩ := replayed
  cases answer <;> rfl

variable [Store σ]

/-! ## One block -/

theorem Stages.height_eq {c : Chain σ} {raw : RawBlock} {b : Block} {changes : List Change}
    (stages : c.Stages raw b changes) : b.height = raw.height := by
  have derived := stages.derived
  unfold deriveBlock at derived
  split at derived
  · cases derived
  · simp only [Prod.mk.injEq, Except.ok.injEq] at derived
    rw [← derived.1.1]

section

variable [AtomicStore σ]

/-- A block that is taken in becomes the head. -/
theorem applyRaw_eq_some {c after : Chain σ} {raw : RawBlock} {b : Block}
    (taken : c.applyRaw raw = (.ok (some b), after)) :
    after.genesis = c.genesis ∧ after.headHeight? = some raw.height := by
  have called : c.call (.raw raw) = (.ok (some b), after) := taken
  have whole := c.call_allOrNothing (.raw raw)
  unfold AllOrNothing at whole
  rw [called] at whole
  obtain ⟨blocks, genesis⟩ := whole
  have height : b.height = raw.height := by
    rcases c.call_cases (.raw raw) with ⟨b', changes, stages, _, committed⟩ | ⟨_, noBlock⟩
    · rw [called, commit] at committed
      split at committed
      · cases committed
        exact stages.height_eq
      · cases committed
    · rw [called] at noBlock
      exact absurd rfl (noBlock b)
  refine ⟨genesis, ?_⟩
  simp only [headHeight?, head?, blocks, List.getLast?_concat, Option.map_some, height]

theorem applyRaw_refused {c after : Chain σ} {raw : RawBlock} {e : Stop Rejection}
    (refused : c.applyRaw raw = (.error e, after)) : after = c := by
  have called : c.call (.raw raw) = (.error e, after) := refused
  have whole := c.call_allOrNothing (.raw raw)
  unfold AllOrNothing at whole
  rw [called] at whole
  exact whole

/-- A block above the head that is taken in is past from then on, and so is what was past before. -/
theorem onward_of_applyRaw {c after : Chain σ} {raw : RawBlock} {b : Block}
    (ahead : c.isPast raw.height = false) (taken : c.applyRaw raw = (.ok (some b), after)) :
    c.Onward after ∧ after.PassesOver raw := by
  obtain ⟨genesis, head⟩ := applyRaw_eq_some taken
  have past_iff : ∀ height, after.isPast height = true ↔ height ≤ raw.height := by
    intro height
    rw [isPast, head, Option.any_some, decide_eq_true_eq]
  refine ⟨⟨genesis, fun height past => (past_iff height).2 ?_⟩,
    .inl ((past_iff raw.height).2 (UInt64.le_refl _))⟩
  unfold isPast at ahead past
  cases top : c.headHeight? with
  | none =>
    rw [top] at past
    cases past
  | some head =>
    rw [top, Option.any_some, decide_eq_false_iff_not] at ahead
    rw [top, Option.any_some, decide_eq_true_eq] at past
    exact UInt64.le_trans past (UInt64.le_of_lt (UInt64.not_le.1 ahead))

end

/-! ## Many blocks -/

/-- Applying blocks of the underlying chain on top of a count. -/
abbrev replayFrom (count : Nat) (blocks : List RawBlock) (c : Chain σ) :
    Except (RawBlock × Stop Rejection) Nat × Chain σ :=
  applyAll RawBlock.height applyRaw count blocks c

/-- What a replay has gone by before it ends it goes by again; and the block that stops it, if one
does, stops it again. -/
inductive Settles (c : Chain σ) (blocks : List RawBlock) :
    Except (RawBlock × Stop Rejection) Nat → Chain σ → Prop where
  | done {count : Nat} {last : Chain σ} (onward : c.Onward last)
      (passed : ∀ raw ∈ blocks, last.PassesOver raw) : Settles c blocks (.ok count) last
  | stopped {before later : List RawBlock} {raw : RawBlock} {e : Stop Rejection} {last : Chain σ}
      (onward : c.Onward last) (split : blocks = before ++ raw :: later)
      (passed : ∀ raw ∈ before, last.PassesOver raw) (ahead : last.isPast raw.height = false)
      (refused : last.applyRaw raw = (.error e, last)) : Settles c blocks (.error (raw, e)) last

theorem Settles.cons {c next last : Chain σ} {raw : RawBlock} {blocks : List RawBlock}
    {answer : Except (RawBlock × Stop Rejection) Nat} (onward : c.Onward next)
    (passed : next.PassesOver raw) (settles : next.Settles blocks answer last) :
    c.Settles (raw :: blocks) answer last := by
  cases settles with
  | done onward' passed' =>
    exact .done (onward.trans onward') (List.forall_mem_cons.2 ⟨onward'.passesOver passed, passed'⟩)
  | stopped onward' split passed' ahead refused =>
    exact .stopped (onward.trans onward') (by rw [split, List.cons_append])
      (List.forall_mem_cons.2 ⟨onward'.passesOver passed, passed'⟩) ahead refused

theorem replayFrom_passedOver {c : Chain σ} {blocks : List RawBlock}
    (passed : ∀ raw ∈ blocks, c.PassesOver raw) (count : Nat) (later : List RawBlock) :
    replayFrom count (blocks ++ later) c = replayFrom count later c := by
  induction blocks with
  | nil => rfl
  | cons raw rest ih =>
    obtain ⟨first, others⟩ := List.forall_mem_cons.1 passed
    rw [List.cons_append, replayFrom, applyAll, ← replayFrom]
    split
    · exact ih others
    · rename_i notPast
      have below := first.resolve_left notPast
      rw [applyRaw_below below]
      exact ih others

theorem replayFrom_append (count : Nat) (first later : List RawBlock) (c : Chain σ) :
    replayFrom count (first ++ later) c
      = match replayFrom count first c with
        | (.ok reached, next) => replayFrom reached later next
        | (.error stop, last) => (.error stop, last) := by
  induction first generalizing count c with
  | nil => rfl
  | cons raw rest ih =>
    simp only [replayFrom, List.cons_append, applyAll] at ih ⊢
    split
    · exact ih count c
    · split
      · exact ih _ _
      · exact ih _ _
      · rfl

/-- The count has no part in where a replay ends. -/
theorem ending_replayFrom (count count' : Nat) (blocks : List RawBlock) (c : Chain σ) :
    ending (replayFrom count blocks c) = ending (replayFrom count' blocks c) := by
  induction blocks generalizing count count' c with
  | nil => rfl
  | cons raw rest ih =>
    simp only [replayFrom, applyAll] at ih ⊢
    split
    · exact ih count count' c
    · split
      · exact ih _ _ _
      · exact ih _ _ _
      · rfl

/-- A replay makes some of the calls with its blocks. -/
theorem exists_run_of_replayFrom (count : Nat) (blocks : List RawBlock) (c : Chain σ) :
    ∃ calls : List Call, (∀ call ∈ calls, call.source ∈ blocks)
      ∧ (replayFrom count blocks c).2 = c.run calls := by
  induction blocks generalizing count c with
  | nil => exact ⟨[], nofun, rfl⟩
  | cons raw rest ih =>
    have step : ∀ {answer : Except (Stop Rejection) (Option Block)} {next : Chain σ} (count : Nat),
        c.applyRaw raw = (answer, next) → ∃ calls : List Call,
          (∀ call ∈ calls, call.source ∈ raw :: rest)
            ∧ (replayFrom count rest next).2 = c.run calls := by
      intro answer next count called
      obtain ⟨calls, given, same⟩ := ih count next
      refine ⟨.raw raw :: calls, List.forall_mem_cons.2 ⟨List.mem_cons_self, fun call member =>
        List.mem_cons_of_mem _ (given call member)⟩, ?_⟩
      rw [same, run, call, called]
    unfold replayFrom applyAll
    split
    · obtain ⟨calls, given, same⟩ := ih count c
      exact ⟨calls, fun call member => List.mem_cons_of_mem _ (given call member), same⟩
    · split
      · rename_i b next taken
        exact step (count + 1) taken
      · rename_i next passed
        exact step count passed
      · rename_i e last refused
        refine ⟨[.raw raw], List.forall_mem_singleton.2 List.mem_cons_self, ?_⟩
        simp only [run, call, refused]

variable [AtomicStore σ]

theorem settles_replayFrom (count : Nat) (blocks : List RawBlock) (c : Chain σ) :
    c.Settles blocks (replayFrom count blocks c).1 (replayFrom count blocks c).2 := by
  induction blocks generalizing count c with
  | nil => exact .done (.refl c) nofun
  | cons raw rest ih =>
    unfold replayFrom applyAll
    split
    · rename_i past
      exact (ih count c).cons (.refl c) (.inl past)
    · rename_i notPast
      have ahead := Bool.eq_false_iff.2 notPast
      split
      · rename_i b next taken
        obtain ⟨onward, passed⟩ := onward_of_applyRaw ahead taken
        exact (ih (count + 1) next).cons onward passed
      · rename_i next passed
        have below := applyRaw_eq_none_iff.1 (congrArg Prod.fst passed)
        rw [applyRaw_below below] at passed
        cases passed
        exact (ih count c).cons (.refl c) (.inr below)
      · rename_i e last refused
        obtain rfl := applyRaw_refused refused
        exact .stopped (.refl last) (List.nil_append (raw :: rest)).symm (List.forall_mem_nil _) ahead
          refused

/-- If the first of some blocks were replayed before, with success or up to a block that is refused,
then replaying all of them ends just as if it had been done at once. -/
theorem ending_replay_again (c : Chain σ) (first later : List RawBlock) :
    ending ((c.replay first).2.replay (first ++ later)) = ending (c.replay (first ++ later)) := by
  have settles := settles_replayFrom 0 first c
  show ending (replayFrom 0 (first ++ later) (replayFrom 0 first c).2)
    = ending (replayFrom 0 (first ++ later) c)
  rw [replayFrom_append 0 first later c]
  cases replayed : replayFrom 0 first c with
  | mk answer last =>
    rw [replayed] at settles
    cases settles with
    | @done count _ _ passed =>
      rw [replayFrom_passedOver passed]
      exact ending_replayFrom 0 count later last
    | @stopped before others raw e _ _ split passed ahead refused =>
      have notPast : ¬ last.isPast raw.height = true := Bool.eq_false_iff.1 ahead
      dsimp only
      rw [split, List.append_assoc, replayFrom_passedOver passed, List.cons_append]
      simp only [replayFrom, applyAll, if_neg notPast, refused]

end TokenLedger.Chain
