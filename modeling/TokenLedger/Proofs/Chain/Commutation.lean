import TokenLedger.Proofs.Chain.Growth
import TokenLedger.Proofs.Independence

/-!
Blocks with their transactions in another order. Whether a block goes on from the head does not depend
on it (`checkContinuity_perm`). So neighbours that are independent can change places in a block, and
neither its fate nor the ledger after it depends on that (`independent_transactions_commute`).
-/

namespace TokenLedger

namespace Chain

variable {c after : Chain UnspentSet} {raw : RawBlock} {b : Block}

/-- In what order the transactions of a block stand has no part in whether it goes on from the head. -/
theorem checkContinuity_perm {txs : List RawTx} (same : txs.Perm raw.txs) :
    c.checkContinuity { raw with txs } = .ok () ↔ c.checkContinuity raw = .ok () := by
  rw [checkContinuity_eq_ok_iff, checkContinuity_eq_ok_iff, (same.map RawTx.id).nodup_iff]
  simp only [same.mem_iff]

theorem applyRaw_swap {before later : List RawTx} {t w : RawTx} (bears : c.store.BearsValue)
    (independent : t.Independent w) (listed : raw.txs = before ++ t :: w :: later)
    (taken : c.applyRaw raw = (.ok (some b), after)) :
    ∃ txs, Exchanged before t w later b.txs txs
      ∧ c.applyRaw { raw with txs := before ++ w :: t :: later }
        = (.ok (some { b with txs }), { after with blocks := c.blocks ++ [{ b with txs }] }) := by
  obtain ⟨notBelow, goesOn, txs, u, derived, rfl, rfl⟩ := applyRaw_eq_some_iff.1 taken
  have order : (before ++ w :: t :: later).Perm raw.txs := by
    rw [listed]
    exact (List.Perm.swap t w later).append_left before
  have distinct : t.id ≠ w.id := by
    obtain ⟨_, _, _, ids⟩ := checkContinuity_eq_ok_iff.1 goesOn
    rw [listed, List.map_append] at ids
    have head := (List.nodup_cons.1 ids.of_append_right).1
    exact fun same => head (List.mem_cons.2 (.inl same))
  rw [listed] at derived
  obtain ⟨txs', exchanged, derived'⟩ := deriveTxs_swap bears independent distinct derived
  refine ⟨txs', exchanged, ?_⟩
  exact applyRaw_eq_some_iff.2
    ⟨notBelow, (checkContinuity_perm order).2 goesOn, txs', u, derived', rfl, rfl⟩

/-- Two neighbours in a block of which neither spends what the other spends or makes can change places.
After any calls the block is taken in with them the one way exactly if it is the other way, and passed
over alike; and where it is taken in, the ledger afterwards is the same, and so is the derived block
but for the places of the records of the two. -/
theorem independent_transactions_commute (g : Genesis) (calls : List Call) (raw : RawBlock)
    (before later : List RawTx) (t w : RawTx) (independent : t.Independent w)
    (listed : raw.txs = before ++ t :: w :: later) :
    let c := (start g).run calls
    let swapped : RawBlock := { raw with txs := before ++ w :: t :: later }
    ((∃ b after, c.applyRaw raw = (.ok (some b), after))
        ↔ ∃ b after, c.applyRaw swapped = (.ok (some b), after))
      ∧ ((c.applyRaw raw).1 = .ok none ↔ (c.applyRaw swapped).1 = .ok none)
      ∧ ∀ b after, c.applyRaw raw = (.ok (some b), after) →
        ∃ b' after', c.applyRaw swapped = (.ok (some b'), after')
          ∧ after'.store = after.store
          ∧ after.blocks = c.blocks ++ [b] ∧ after'.blocks = c.blocks ++ [b']
          ∧ ∃ txs, Exchanged before t w later b.txs txs ∧ b' = { b with txs } := by
  intro c swapped
  have bears : c.store.BearsValue := (run_sound g calls).bears
  have back : raw = { swapped with txs := before ++ t :: w :: later } := by rw [← listed]
  refine ⟨⟨?_, ?_⟩, ?_, ?_⟩
  · rintro ⟨b, after, taken⟩
    obtain ⟨txs, _, taken'⟩ := applyRaw_swap bears independent listed taken
    exact ⟨_, _, taken'⟩
  · rintro ⟨b, after, taken⟩
    obtain ⟨txs, _, taken'⟩ := applyRaw_swap bears independent.symm rfl taken
    rw [back]
    exact ⟨_, _, taken'⟩
  · rw [applyRaw_eq_none_iff, applyRaw_eq_none_iff]
  · intro b after taken
    obtain ⟨txs, exchanged, taken'⟩ := applyRaw_swap bears independent listed taken
    obtain ⟨_, _, _, _, _, _, rfl⟩ := applyRaw_eq_some_iff.1 taken
    exact ⟨_, _, taken', rfl, rfl, rfl, txs, exchanged, rfl⟩

/-- The second of the two lists its input twice, and a later transaction spends what both have made. -/
theorem independent_payments_commute :
    let issue : Call := .raw ⟨10, "a", "", [⟨"gen", [], [⟨100, none⟩, ⟨50, none⟩, ⟨25, none⟩]⟩]⟩
    let early : RawTx := ⟨"early", [⟨"gen", 2⟩], [⟨25, none⟩]⟩
    let pay : RawTx := ⟨"pay", [⟨"gen", 0⟩, ⟨"early", 0⟩], [⟨60, none⟩]⟩
    let send : RawTx := ⟨"send", [⟨"gen", 1⟩, ⟨"gen", 1⟩], [⟨30, none⟩, ⟨0, some []⟩, ⟨20, none⟩]⟩
    let join : RawTx := ⟨"join", [⟨"pay", 0⟩, ⟨"send", 2⟩], [⟨80, none⟩]⟩
    let raw : RawBlock := ⟨11, "b", "a", [early, pay, send, join]⟩
    let c := (start ⟨"gen", 10⟩).run [issue]
    (∃ b after, c.applyRaw raw = (.ok (some b), after))
      ∧ ∃ b after, c.applyRaw { raw with txs := [early, send, pay, join] } = (.ok (some b), after) := by
  intro issue early pay send join raw c
  have independent : pay.Independent send := ⟨by decide, by decide, by decide⟩
  have taken : ∃ b after, c.applyRaw raw = (.ok (some b), after) := by
    simp only [c, raw, issue, early, pay, send, join]
    exact ⟨_, _, rfl⟩
  have commute := independent_transactions_commute ⟨"gen", 10⟩ [issue] raw [early] [join] pay send
    independent rfl
  exact ⟨taken, commute.1.1 taken⟩

end Chain

end TokenLedger
