import TokenLedger.Classification
import TokenLedger.Proofs.Classification.Inputs
import TokenLedger.Proofs.Classification.Outputs

/-!
What classifying a transaction comes to, on a store that holds a set. A record that is kept follows
from the transaction and the set (`Tx.FollowsFrom`): it spends different entries of the set, and
what they bore is what its outputs were assigned and what was burnt. A transaction that is not about
token leaves the store exactly as it was, as long as no entry of the set is without value.
-/

namespace TokenLedger

/-- No entry is without value. -/
def UnspentSet.BearsValue (u : UnspentSet) : Prop :=
  ∀ r entry, u.find? r = some entry → 0 < entry.value.toNat

/-- A record is what follows from a transaction at a height on top of a set, where the transaction
brings `issue` into being. -/
structure Tx.FollowsFrom (tx : Tx) (raw : RawTx) (height : UInt64) (issue : Nat) (u : UnspentSet) :
    Prop where
  unaltered : tx.toRaw = raw
  height_eq : tx.height = height
  distinct : tx.spentRefs.Nodup
  found : ∀ i ∈ tx.inputs, ∀ v, i.tokenValue? = some v → (u.find? i.ref).map Utxo.value = some v
  placed : tx.outputs.map TxOutput.index = (Tx.ofRaw raw height).outputs.map TxOutput.index
  paid : ∀ o ∈ tx.outputs, o.Paid
  balanced :
    (tx.spentRefs.map u.valueUnder).sum + issue = tokenTotal tx.outputs + tx.burntFee.toNat

namespace Tx

/-! ## Inputs -/

theorem map_ref_recognized {inputs : List TxInput} {values : List (Option UInt64)}
    (same : values.length = inputs.length) :
    (List.zipWith TxInput.recognized inputs values).map TxInput.ref
      = inputs.map TxInput.ref := by
  induction inputs generalizing values with
  | nil => rfl
  | cons i rest ih =>
    cases values with
    | nil => cases same
    | cons value? values =>
      rw [List.zipWith_cons_cons, List.map_cons, List.map_cons, ih (Nat.succ.inj same)]
      cases value? <;> rfl

/-- What a record spends are the references that were recognized. -/
theorem spentRefs_of_recognized {tx : Tx} {refs : List OutputRef} {values : List (Option UInt64)}
    (inputs : tx.inputs = List.zipWith TxInput.recognized (refs.map fun ref => { ref }) values) :
    tx.spentRefs = recognizedRefs refs values := by
  rw [spentRefs, inputs]
  clear inputs
  induction refs generalizing values with
  | nil => rfl
  | cons r rest ih =>
    cases values with
    | nil => rfl
    | cons value? values =>
      rw [List.map_cons, List.zipWith_cons_cons]
      cases value? with
      | none =>
        rw [recognizedRefs_none_cons, ← ih]
        rfl
      | some v =>
        rw [recognizedRefs_some_cons, ← ih]
        rfl

/-- A token value that a record has for an input is what the set has under its reference. -/
theorem find?_of_recognized {u : UnspentSet} {seen refs : List OutputRef} {i : TxInput}
    (member : i ∈ List.zipWith TxInput.recognized (refs.map fun ref => { ref })
      (foundValues u seen refs)) {v : UInt64} (value : i.tokenValue? = some v) :
    (u.find? i.ref).map Utxo.value = some v := by
  induction refs generalizing seen with
  | nil => cases member
  | cons r rest ih =>
    simp only [foundValues] at member
    split at member
    · rcases List.mem_cons.1 member with rfl | member
      · cases value
      · exact ih member
    · rcases List.mem_cons.1 member with rfl | member
      · cases entry : (u.find? r).map Utxo.value with
        | none =>
          rw [entry] at value
          cases value
        | some w =>
          rw [entry] at value
          cases value
          exact entry
      · exact ih member

/-! ## What is left -/

@[simp] theorem settled_id (tx : Tx) (left : Balance) : (tx.settled left).id = tx.id := by
  unfold settled
  split <;> rfl

@[simp] theorem settled_height (tx : Tx) (left : Balance) :
    (tx.settled left).height = tx.height := by
  unfold settled
  split <;> rfl

@[simp] theorem settled_inputs (tx : Tx) (left : Balance) :
    (tx.settled left).inputs = tx.inputs := by
  unfold settled
  split <;> rfl

@[simp] theorem settled_outputs (tx : Tx) (left : Balance) :
    (tx.settled left).outputs = tx.outputs := by
  unfold settled
  split <;> rfl

theorem settled_ne_genesis {tx : Tx} (left : Balance) (other : tx.kind ≠ .genesis) :
    (tx.settled left).kind ≠ .genesis := by
  unfold settled
  split
  · dsimp only
    split
    · decide
    · exact other
  · exact other

theorem settled_kind (tx : Tx) (left : Balance) :
    (tx.settled left).kind
      = if 0 < left.value ∧ tx.kind = .transfer then .feePayment else tx.kind := by
  unfold settled Balance.isPositive
  by_cases positive : 0 < left.value
  · simp [positive]
  · simp [positive]

/-- All that is left is burnt. -/
theorem settled_burntFee (tx : Tx) (none : tx.burntFee = 0) {left : Balance}
    (notOverdrawn : 0 ≤ left.value) : ((tx.settled left).burntFee.toNat : Int) = left.value := by
  unfold settled
  split
  · exact Balance.toNat_amount notOverdrawn
  · rename_i empty
    simp only [Balance.isPositive, decide_eq_true_eq] at empty
    rw [none, UInt64.toNat_zero]
    omega

end Tx

/-! ## The whole transaction -/

/-- Classifying makes no transaction the issue. -/
theorem classify_ne_genesis {σ : Type} [Store σ] (height : UInt64) {tx : Tx}
    (other : tx.kind ≠ .genesis) (s : σ) : (classify height tx s).tx.kind ≠ .genesis := by
  have recognized (values : List (Option UInt64)) : (tx.recognized values).kind ≠ .genesis := by
    unfold Tx.recognized
    dsimp only
    split
    · decide
    · exact other
  have evaluated (values : List (Option UInt64)) (balance : Balance) (s : σ) :
      (evaluateOutputs (tx.recognized values) height balance false s).kind ≠ .genesis := by
    unfold evaluateOutputs
    dsimp only
    split <;> exact allocate_ne_genesis _ _ _ _ (recognized values) _ _ _
  unfold classify
  split
  · exact other
  · split
    · dsimp only
      split
      · exact Tx.settled_ne_genesis _ (evaluated _ _ _)
      · exact evaluated _ _ _
    · exact other

/-- The height that a record was made with stays in it, and nothing else hangs on it. -/
theorem classify_madeAt {σ : Type} [Store σ] (height made : UInt64) (tx : Tx) (s : σ) :
    let c := classify height tx s
    classify height { tx with height := made } s
      = { c with tx := { c.tx with height := made } } := by
  have inputs : evaluateInputs { tx with height := made } s = evaluateInputs tx s := rfl
  have outputs (values : List (Option UInt64)) (balance : Balance) (s : σ) :
      evaluateOutputs (({ tx with height := made } : Tx).recognized values) height balance false s
        = evaluateOutputs (tx.recognized values) height balance false s := rfl
  simp only [classify, inputs, outputs]
  split
  · rfl
  · split
    · split
      · simp only [Tx.settled]
        split <;> rfl
      · rfl
    · rfl

/-- Where nothing was found there is nothing to end, as long as every entry bears value. -/
theorem recognizedRefs_eq_nil {u : UnspentSet} (bears : u.BearsValue) {refs : List OutputRef}
    (nothing : foundTotal (foundValues u [] refs) = 0) :
    recognizedRefs refs (foundValues u [] refs) = [] := by
  refine List.eq_nil_iff_forall_not_mem.2 fun r member => ?_
  have present := ((mem_recognizedRefs_iff u).1 member).2.2
  obtain ⟨entry, found⟩ := Option.isSome_iff_exists.1 present
  have value := bears r entry found
  rw [← sum_map_recognizedRefs, List.sum_eq_zero_iff_forall_eq_nat] at nothing
  have zero := nothing _ (List.mem_map_of_mem member)
  rw [UnspentSet.valueUnder_of_find? found] at zero
  omega

/-- A record with the values that were found for its inputs, the outputs that were gone through, and
what was left of the balance as its fee, follows from its transaction. -/
theorem Tx.followsFrom_of_faithful {σ : Type} [Store σ] {s : σ} {u : UnspentSet} {raw : RawTx}
    {height : UInt64} {balance : Balance} {a : Allocation σ}
    (whole : a.Faithful raw.id height 0 (Tx.ofRaw raw height).outputs balance s)
    (total : balance.value = foundTotal (foundValues u [] raw.inputs)) {tx : Tx}
    (id_eq : tx.id = raw.id) (height_eq : tx.height = height)
    (inputs : tx.inputs = List.zipWith TxInput.recognized (raw.inputs.map fun ref => { ref })
      (foundValues u [] raw.inputs))
    (outputs : tx.outputs = a.outputs) (burnt : (tx.burntFee.toNat : Int) = a.balance.value) :
    tx.FollowsFrom raw height 0 u := by
  have spent := Tx.spentRefs_of_recognized inputs
  refine ⟨?_, height_eq, ?_, ?_, ?_, ?_, ?_⟩
  · have refs : tx.inputs.map TxInput.ref = raw.inputs := by
      rw [inputs, Tx.map_ref_recognized (by simp), List.map_map]
      exact List.map_id _
    have unaltered : tx.outputs.map TxOutput.toRaw = raw.outputs := by
      rw [outputs, whole.unaltered]
      exact congrArg RawTx.outputs (toRaw_ofRaw raw height)
    rw [Tx.toRaw, id_eq, refs, unaltered]
  · rw [spent]
    exact nodup_recognizedRefs u [] raw.inputs
  · intro i member v value
    rw [inputs] at member
    exact Tx.find?_of_recognized member value
  · rw [outputs]
    exact whole.placed
  · rw [outputs]
    exact whole.paid
  · have sum := whole.balanced
    rw [spent, sum_map_recognizedRefs, outputs]
    omega

/-- What the inputs of a transaction were evaluated to is what they find in the set. -/
theorem evaluateInputs_eq_ok {σ : Type} [Store σ] [LawfulStore σ] {s s' : σ} {u : UnspentSet}
    (holds : Holds s u) {raw : RawTx} {height : UInt64} {inputs : InputEvaluation}
    (evaluated : evaluateInputs (Tx.ofRaw raw height) s = (.ok inputs, s')) :
    inputs.values = foundValues u [] raw.inputs
      ∧ inputs.balance.value = foundTotal (foundValues u [] raw.inputs)
      ∧ perform s (endings (recognizedRefs raw.inputs (foundValues u [] raw.inputs)))
        = (.ok (), s') := by
  have listed : (Tx.ofRaw raw height).inputs.map TxInput.ref = raw.inputs :=
    congrArg RawTx.inputs (toRaw_ofRaw raw height)
  rcases evaluateInputs_cases holds (Tx.ofRaw raw height) listed with
    ⟨balance, after, same, total, spent⟩ | ⟨refused, -⟩
  · rw [evaluated] at same
    cases same
    exact ⟨rfl, total, spent⟩
  · rw [evaluated] at refused
    cases refused

/-- A transaction whose inputs bring something in is kept, as its outputs leave it. -/
theorem classify_of_positive {σ : Type} [Store σ] {s s' : σ} {tx : Tx} {height : UInt64}
    {inputs : InputEvaluation} (evaluated : evaluateInputs tx s = (.ok inputs, s'))
    (positive : 0 < inputs.balance.value) {a : Allocation σ}
    (gone : evaluateOutputs (tx.recognized inputs.values) height inputs.balance false s' = a)
    (ended : a.ended = .ok ()) :
    classify height tx s = {
      result := .ok true
      tx := Tx.settled
        { tx.recognized inputs.values with outputs := a.outputs, kind := a.kind } a.balance
      store := a.store } := by
  have left : inputs.balance.isPositive = true := by
    simp only [Balance.isPositive, decide_eq_true_eq]
    exact positive
  simp only [classify, evaluated, left, if_true, gone, ended]

/-- The inputs of a transaction that is kept brought something in. -/
theorem positive_of_classify {σ : Type} [Store σ] {s : σ} {tx : Tx} {height : UInt64}
    (kept : (classify height tx s).result = .ok true) :
    ∃ inputs s', evaluateInputs tx s = (.ok inputs, s') ∧ 0 < inputs.balance.value := by
  unfold classify at kept
  split at kept
  · cases kept
  · rename_i inputs s' evaluated
    refine ⟨inputs, s', evaluated, ?_⟩
    split at kept
    · rename_i left
      simp only [Balance.isPositive, decide_eq_true_eq] at left
      exact left
    · cases kept

/-- The record of a transaction whose inputs bring something in follows from it, and makes its
changes. -/
theorem classify_follows {σ : Type} [Store σ] [LawfulStore σ] {s s' : σ} {u : UnspentSet}
    (holds : Holds s u) {raw : RawTx} {height : UInt64} {inputs : InputEvaluation}
    (evaluated : evaluateInputs (Tx.ofRaw raw height) s = (.ok inputs, s'))
    (positive : 0 < inputs.balance.value) :
    let c := classify height (Tx.ofRaw raw height) s
    c.result = .ok true ∧ c.tx.FollowsFrom raw height 0 u
      ∧ perform s (c.tx.changes height) = (.ok (), c.store) := by
  obtain ⟨values, total, spent⟩ := evaluateInputs_eq_ok holds evaluated
  have whole := evaluateOutputs_faithful (holds_of_perform holds spent)
    ((Tx.ofRaw raw height).recognized inputs.values) height inputs.balance false
  rw [classify_of_positive evaluated positive rfl whole.ended]
  generalize evaluateOutputs _ height inputs.balance false s' = a at whole
  rw [values]
  have burnt := Tx.settled_burntFee
    { (Tx.ofRaw raw height).recognized (foundValues u [] raw.inputs) with
      outputs := a.outputs, kind := a.kind } rfl (whole.notOverdrawn (Int.le_of_lt positive))
  generalize kept : Tx.settled _ a.balance = tx at burnt
  have follows : tx.FollowsFrom raw height 0 u := by
    subst kept
    exact Tx.followsFrom_of_faithful whole total (Tx.settled_id ..) (Tx.settled_height ..)
      (Tx.settled_inputs ..) (Tx.settled_outputs ..) burnt
  refine ⟨rfl, follows, ?_⟩
  subst kept
  rw [Tx.changes, Tx.spentRefs_of_recognized (Tx.settled_inputs ..), perform_append spent,
    Tx.entries_eq, Tx.settled_id, Tx.settled_outputs]
  exact whole.made

/-- A transaction is kept exactly if its references are worth something that a balance holds, even
where entries are without value. -/
theorem classify_kept_iff {σ : Type} [Store σ] [LawfulStore σ] {s : σ} {u : UnspentSet}
    (holds : Holds s u) (height : UInt64) {tx : Tx} {refs : List OutputRef}
    (listed : tx.inputs.map TxInput.ref = refs) :
    (classify height tx s).result = .ok true ↔ 0 < worth s refs ∧ worth s refs ≤ 2 ^ 63 - 1 := by
  rw [worth_eq_foundTotal holds]
  rcases evaluateInputs_cases holds tx listed with
    ⟨balance, s', evaluated, total, spent⟩ | ⟨refused, large⟩
  · by_cases positive : 0 < balance.value
    · have upper := balance.fits.2
      have whole := evaluateOutputs_faithful (holds_of_perform holds spent)
        (tx.recognized (foundValues u [] refs)) height balance false
      rw [classify_of_positive evaluated positive rfl whole.ended]
      exact iff_of_true rfl ⟨by omega, by omega⟩
    · have empty : balance.isPositive = false := decide_eq_false positive
      refine iff_of_false ?_ fun bears => positive (by omega)
      simp [classify, evaluated, empty]
  · refine iff_of_false ?_ fun bears => by omega
    simp [classify, refused]

/-- The record of a transaction whose inputs bring something in is what going through its outputs
leads to: the roles they were given, and the kind unless it is a mere transfer and something is
left. -/
theorem classify_allocates {σ : Type} [Store σ] [LawfulStore σ] {s s' : σ} {u : UnspentSet}
    (holds : Holds s u) {raw : RawTx} {height : UInt64} {inputs : InputEvaluation}
    (evaluated : evaluateInputs (Tx.ofRaw raw height) s = (.ok inputs, s'))
    (positive : 0 < inputs.balance.value) :
    let c := classify height (Tx.ofRaw raw height) s
    let a := allocate raw.id height 0 (Tx.ofRaw raw height).outputs .transfer inputs.balance false s'
    a.ended = .ok () ∧ c.tx.outputs = markCandidate a.outputs
      ∧ c.tx.kind = (if 0 < c.tx.burntFee ∧ a.kind = .transfer then .feePayment else a.kind)
      ∧ (c.tx.burntFee.toNat : Int) = a.balance.value
      ∧ c.tx.spentRefs = recognizedRefs raw.inputs (foundValues u [] raw.inputs) := by
  intro c a
  obtain ⟨values, -, spent⟩ := evaluateInputs_eq_ok holds evaluated
  have whole : a.Faithful raw.id height 0 (Tx.ofRaw raw height).outputs inputs.balance s' :=
    allocate_faithful (holds_of_perform holds spent) ..
  have gone : evaluateOutputs ((Tx.ofRaw raw height).recognized inputs.values) height
      inputs.balance false s' = { a with outputs := markCandidate a.outputs } :=
    evaluateOutputs_of_ended rfl whole.ended
  have kept := classify_of_positive evaluated positive gone whole.ended
  have burnt : (c.tx.burntFee.toNat : Int) = a.balance.value := by
    simp only [c, kept]
    exact Tx.settled_burntFee _ rfl (whole.notOverdrawn (Int.le_of_lt positive))
  refine ⟨whole.ended, ?_, ?_, burnt, ?_⟩
  · simp only [c, kept, Tx.settled_outputs]
  · have left : 0 < c.tx.burntFee ↔ 0 < a.balance.value := by
      rw [UInt64.lt_iff_toNat_lt, UInt64.toNat_zero]
      omega
    simp only [left]
    simp only [c, kept, Tx.settled_kind]
  · refine Tx.spentRefs_of_recognized ?_
    simp only [c, kept, Tx.settled_inputs, Tx.recognized, values]
    rfl

/-- A transaction is kept with a record that follows from it, or passed over without a trace, or
refused. Which of these it is hangs on what its references are worth. -/
theorem classify_cases {σ : Type} [Store σ] [LawfulStore σ] {s : σ} {u : UnspentSet}
    (holds : Holds s u) (bears : u.BearsValue) (raw : RawTx) (height : UInt64) :
    let c := classify height (Tx.ofRaw raw height) s
    (0 < worth s raw.inputs ∧ c.result = .ok true ∧ c.tx.FollowsFrom raw height 0 u
        ∧ perform s (c.tx.changes height) = (.ok (), c.store))
      ∨ (worth s raw.inputs = 0 ∧ c.result = .ok false ∧ c.store = s)
      ∨ (¬ FitsWord (worth s raw.inputs) ∧ c.result = .error (.balanceOverflow raw.id)) := by
  have listed : (Tx.ofRaw raw height).inputs.map TxInput.ref = raw.inputs :=
    congrArg RawTx.inputs (toRaw_ofRaw raw height)
  rw [worth_eq_foundTotal holds]
  rcases evaluateInputs_cases holds (Tx.ofRaw raw height) listed with
    ⟨balance, s', evaluated, total, spent⟩ | ⟨refused, large⟩
  · by_cases positive : 0 < balance.value
    · exact .inl ⟨by omega, classify_follows holds evaluated positive⟩
    · -- Entries without value would have been ended here although the transaction is passed over.
      have nothing : foundTotal (foundValues u [] raw.inputs) = 0 := by omega
      have empty : balance.isPositive = false := by
        simp only [Balance.isPositive, decide_eq_false_iff_not]
        exact positive
      rw [recognizedRefs_eq_nil bears nothing] at spent
      cases spent
      refine .inr (.inl ⟨nothing, ?_⟩)
      simp [classify, evaluated, empty]
  · simp only [classify, refused]
    refine .inr (.inr ⟨?_, rfl⟩)
    rw [fitsWord_natCast_iff]
    exact Nat.not_lt_of_le large

end TokenLedger
