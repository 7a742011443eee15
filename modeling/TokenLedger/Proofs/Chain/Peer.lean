import TokenLedger.Proofs.Chain.Run

/-!
Blocks from elsewhere. The only thing that is done with a claimed block is to compare it with the one
that is derived here. So a chain in memory answers it as it answers the block of the underlying chain,
except that it refuses the derived block where the claimed one is another (`offered_as_derived`). And
whatever is offered, blocks of the underlying chain alone lead to the same chain.
-/

namespace TokenLedger.Chain

/-- Whatever calls are made, blocks of the underlying chain alone lead to the same chain. -/
theorem exists_raws_of_run {σ : Type} [Store σ] (c : Chain σ) (calls : List Call) :
    ∃ raws : List RawBlock, c.run (raws.map .raw) = c.run calls := by
  induction calls generalizing c with
  | nil => exact ⟨[], rfl⟩
  | cons call rest ih =>
    obtain ⟨raws, same⟩ := ih (c.call call).2
    rcases c.call_cases call with ⟨b, changes, stages, _, committed⟩ | ⟨unchanged, _⟩
    · refine ⟨call.source :: raws, ?_⟩
      rw [List.map_cons, run, run, ← same, Chain.call, stages.applyRaw, committed]
    · refine ⟨raws, ?_⟩
      rw [run, ← same, unchanged]

variable (c : Chain UnspentSet) (raw : RawBlock)

/-- A chain in memory appends a derived block unless something is held against it; where there is
none, nothing is left to be checked. -/
theorem applyChecked_cases (check : Block → Option Rejection) :
    (∃ b after, c.applyRaw raw = (.ok (some b), after)
        ∧ (check b = none → c.applyChecked raw check = (.ok (some b), after))
        ∧ ∀ r, check b = some r → c.applyChecked raw check = (.error (.refused r), c))
      ∨ ∃ answer, c.applyRaw raw = (answer, c) ∧ c.applyChecked raw check = (answer, c)
        ∧ ∀ b, answer ≠ .ok (some b) := by
  obtain ⟨answer, staged, _⟩ := (Agrees.refl c).stage raw
  simp only [applyRaw, applyChecked, staged]
  cases answer with
  | error e => exact .inr ⟨_, rfl, rfl, by simp⟩
  | ok staged? =>
    cases staged? with
    | none => exact .inr ⟨_, rfl, rfl, by simp⟩
    | some both =>
      obtain ⟨b, changes⟩ := both
      have committed : c.commit b changes = (.ok (some b),
          { c with
            store := changes.foldl UnspentSet.apply c.store, blocks := c.blocks ++ [b] }) := by
        simp only [commit, UnspentSet.commitBlock_eq]
      refine .inl ⟨b, _, committed, ?_, ?_⟩
      · intro nothing
        simp only [nothing, committed]
      · intro r held
        simp only [held]

theorem refuseDivergence_of_ne {claimed derived : Block} (other : claimed ≠ derived) :
    ∃ d, refuseDivergence claimed derived = some (.divergence claimed.height d) := by
  cases differs : divergence? derived claimed with
  | none => exact absurd (divergence?_eq_none_iff.1 differs).symm other
  | some d => exact ⟨d, by rw [refuseDivergence, differs]; rfl⟩

/-- A chain in memory, whatever its entries and its blocks, refuses a claimed block at another height
than the block of the underlying chain. At the same height it answers as it would answer that block
alone, if that is an error or nothing. Where it would append a derived block, it does just that if the
claimed one is the same, and otherwise refuses it for the divergence and stays as it is. A block that
is offered alone is one that is offered with what it was derived from. So no calls lead to a chain to
which blocks of the underlying chain alone do not lead. -/
theorem offered_as_derived (claimed : Block) :
    let offered := c.applyPeerWithRaw claimed raw
    (raw.height ≠ claimed.height →
        ∃ d, offered = (.error (.refused (.divergence claimed.height d)), c))
      ∧ (raw.height = claimed.height → ∀ answer after, c.applyRaw raw = (answer, after) →
        ((∀ b, answer ≠ .ok (some b)) → offered = (answer, after) ∧ after = c)
          ∧ ∀ b, answer = .ok (some b) →
            (claimed = b → offered = (.ok (some b), after))
              ∧ (claimed ≠ b →
                ∃ d, offered = (.error (.refused (.divergence claimed.height d)), c)))
      ∧ c.applyPeer claimed = c.applyPeerWithRaw claimed claimed.toRaw
      ∧ ∀ calls : List Call, ∃ raws : List RawBlock, c.run (raws.map .raw) = c.run calls := by
  intro offered
  refine ⟨fun heights => ⟨_, if_pos heights⟩, fun heights answer after answered => ?_, ?_,
    c.exists_raws_of_run⟩
  · have checked : offered = c.applyChecked raw (refuseDivergence claimed) :=
      if_neg (not_not_intro heights)
    rw [checked]
    rcases c.applyChecked_cases raw (refuseDivergence claimed) with
      ⟨b, taken, derived, appended, refused⟩ | ⟨none, derived, same, noBlock⟩
    · rw [answered] at derived
      cases derived
      refine ⟨fun noBlock => absurd rfl (noBlock b), ?_⟩
      rintro _ ⟨⟩
      constructor
      · rintro rfl
        exact appended (refuseDivergence_eq_none_iff.2 rfl)
      · intro other
        obtain ⟨d, diverges⟩ := refuseDivergence_of_ne other
        exact ⟨d, refused _ diverges⟩
    · rw [answered] at derived
      cases derived
      exact ⟨fun _ => ⟨same, rfl⟩, fun b block => absurd block (noBlock b)⟩
  · exact (if_neg (not_not_intro rfl)).symm

end TokenLedger.Chain
