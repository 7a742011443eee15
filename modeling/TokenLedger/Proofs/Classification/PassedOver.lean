import Mathlib.Algebra.Order.BigOperators.Group.Finset
import TokenLedger.Proofs.Classification
import TokenLedger.Proofs.Classification.BroughtIn

/-!
What a transaction does that is not about token. Its inputs are spent before it is known that they
bring in nothing, so an entry without value is taken out although the transaction is passed over.
It is told here exactly when that happens (`leaves_no_trace_iff`). Where every entry bears value, as in
the ledger of every chain, such a transaction leaves no trace.
-/

namespace TokenLedger

/-- A set without the entries under some references has lost what these bore. -/
theorem UnspentSet.totalValue_without {u after : UnspentSet} {gone : Finset OutputRef}
    (left : ∀ r, after.find? r = if r ∈ gone then none else u.find? r) :
    after.totalValue + ∑ r ∈ gone, u.valueUnder r = u.totalValue := by
  have ended : after = (endings gone.toList).foldl apply u := by
    refine SortedMap.ext_find? fun r => ?_
    rw [left, find?_foldl_endings]
    simp only [Finset.mem_toList]
  rw [ended, ← totalValue_endings (u := u) gone.nodup_toList, Finset.sum_map_toList]

/-- A transaction that is passed over comes out as it went in, and only its inputs were gone through. -/
theorem classify_of_passed_over {σ : Type} [Store σ] {s : σ} {tx : Tx} {height : UInt64}
    (passedOver : (classify height tx s).result = .ok false) :
    ∃ inputs s', evaluateInputs tx s = (.ok inputs, s') ∧ inputs.balance.value ≤ 0
      ∧ classify height tx s = { result := .ok false, tx, store := s' } := by
  cases evaluated : evaluateInputs tx s with
  | mk answer s' =>
    cases answer with
    | error e => simp [classify, evaluated] at passedOver
    | ok inputs =>
      by_cases positive : 0 < inputs.balance.value
      · simp only [classify, evaluated, Balance.isPositive, positive, decide_true, if_true]
          at passedOver
        split at passedOver <;> cases passedOver
      · exact ⟨inputs, s', rfl, by omega, by simp [classify, evaluated, Balance.isPositive, positive]⟩

/-- What a set knows of a transaction that is passed over is without value, and is gone afterwards. -/
theorem worthless_of_passed_over {height : UInt64} {tx : Tx} {u : UnspentSet}
    (passedOver : (classify height tx u).result = .ok false) :
    ∃ after, classify height tx u = { result := .ok false, tx, store := after }
      ∧ (∑ r ∈ u.known (tx.inputs.map TxInput.ref), u.valueUnder r = 0)
      ∧ ∀ r, after.find? r
        = if r ∈ u.known (tx.inputs.map TxInput.ref) then none else u.find? r := by
  obtain ⟨inputs, after, evaluated, notPositive, passed⟩ := classify_of_passed_over passedOver
  rcases evaluateInputs_known u tx rfl rfl with
    ⟨balance, after', evaluated', total, _, left⟩ | ⟨_, refused⟩
  · rw [evaluated] at evaluated'
    cases evaluated'
    refine ⟨after, passed, ?_, left⟩
    change balance.value ≤ 0 at notPositive
    omega
  · rw [evaluated] at refused
    cases refused

/-- A transaction that is passed over keeps its record as it is. It takes out of the set whatever it
lists; all of that is without value, so the total stays. The set is the same afterwards exactly if
nothing that is listed has an entry there, which is so wherever every entry bears value. -/
theorem leaves_no_trace_iff (height : UInt64) (tx : Tx) (u : UnspentSet)
    (passedOver : (classify height tx u).result = .ok false) :
    let c := classify height tx u
    c.tx = tx
      ∧ (∀ r, c.store.find? r = if r ∈ tx.inputs.map TxInput.ref then none else u.find? r)
      ∧ (∀ i ∈ tx.inputs, ∀ entry, u.find? i.ref = some entry → entry.value = 0)
      ∧ c.store.totalValue = u.totalValue
      ∧ (c.store = u ↔ ∀ i ∈ tx.inputs, u.find? i.ref = none)
      ∧ (u.BearsValue → c.store = u) := by
  intro c
  obtain ⟨after, passed, nothing, left⟩ := worthless_of_passed_over passedOver
  have total := UnspentSet.totalValue_without left
  have listed (r : OutputRef) :
      after.find? r = if r ∈ tx.inputs.map TxInput.ref then none else u.find? r := by
    rw [left]
    by_cases member : r ∈ tx.inputs.map TxInput.ref
    · cases found : u.find? r <;> simp [u.mem_known_iff, member, found]
    · simp [u.mem_known_iff, member]
  have worthless : ∀ i ∈ tx.inputs, ∀ entry, u.find? i.ref = some entry → entry.value = 0 := by
    intro i member entry found
    have known : i.ref ∈ u.known (tx.inputs.map TxInput.ref) := by
      rw [u.mem_known_iff, found]
      exact ⟨List.mem_map_of_mem member, rfl⟩
    have zero := Finset.sum_eq_zero_iff.1 nothing i.ref known
    rw [UnspentSet.valueUnder_of_find? found] at zero
    exact UInt64.toNat_inj.1 zero
  have same : after = u ↔ ∀ i ∈ tx.inputs, u.find? i.ref = none := by
    constructor
    · intro same i member
      rw [← same, listed, if_pos (List.mem_map_of_mem member)]
    · intro vacant
      refine SortedMap.ext_find? fun r => ?_
      rw [listed]
      split
      · rename_i member
        obtain ⟨i, input, rfl⟩ := List.mem_map.1 member
        exact (vacant i input).symm
      · rfl
  simp only [c, passed]
  refine ⟨trivial, listed, worthless, by omega, same, fun bears => same.2 fun i member => ?_⟩
  refine Option.eq_none_iff_forall_ne_some.2 fun entry found => ?_
  have value := bears i.ref entry found
  rw [worthless i member entry found] at value
  exact Nat.lt_irrefl _ value

/-- The second input lists the first one again, and the third one lists what is not known. -/
theorem leaves_no_trace_of_unknown_inputs :
    let u : UnspentSet := SortedMap.ofList [(⟨"funding", 0⟩, ⟨2500, 1, .token⟩)]
    let tx := Tx.ofRaw ⟨"next", [⟨"funding", 1⟩, ⟨"funding", 1⟩, ⟨"none", 0⟩], [⟨5, none⟩]⟩ 2
    (classify 2 tx u).result = .ok false ∧ (classify 2 tx u).store = u := by
  intro u tx
  have passedOver : (classify 2 tx u).result = .ok false := by decide
  exact ⟨passedOver, (leaves_no_trace_iff 2 tx u passedOver).2.2.2.2.1.2 (by decide)⟩

/-- A transaction that brings in nothing may leave a trace: it takes out an entry without value. -/
theorem entry_without_value_taken_out :
    let u : UnspentSet := SortedMap.ofList
      [(⟨"funding", 0⟩, ⟨0, 1, .token⟩), (⟨"funding", 1⟩, ⟨2500, 1, .token⟩)]
    let tx := Tx.ofRaw ⟨"next", [⟨"funding", 0⟩], [⟨5, none⟩]⟩ 2
    (classify 2 tx u).result = .ok false ∧ (classify 2 tx u).store ≠ u := by
  decide

end TokenLedger
