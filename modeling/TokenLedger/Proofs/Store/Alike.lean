import TokenLedger.Chain.Derivation

/-!
Stores that cannot be told apart. Deriving a block works on a store by its calls alone. So if two
stores answer each call alike and stay alike by it, everything that is computed with the one is
computed with the other as well, refusals included (`Alike.deriveTxs`).

A transaction looks up and removes its inputs only. So for a single one it is enough that the stores
answer alike for these (`AlikeOn.deriveTx`).
-/

namespace TokenLedger

section

variable {σ τ : Type} (R : σ → τ → Prop)

/-- Two calls answer the same, and the stores that they leave are related. -/
def SameCall {α : Type} (x : α × σ) (y : α × τ) : Prop :=
  ∃ answer s t, x = (answer, s) ∧ y = (answer, t) ∧ R s t

/-- Related stores answer each call alike and are related afterwards. -/
structure Alike [Store σ] [Store τ] : Prop where
  find? {s : σ} {t : τ} (related : R s t) (r : OutputRef) : Store.find? s r = Store.find? t r
  insert {s : σ} {t : τ} (related : R s t) (r : OutputRef) (entry : Utxo) :
    SameCall R (Store.insert s r entry) (Store.insert t r entry)
  remove {s : σ} {t : τ} (related : R s t) (r : OutputRef) :
    SameCall R (Store.remove s r) (Store.remove t r)

/-- Related stores answer calls alike, if these look up and remove nothing beyond some references, and
are related afterwards. -/
structure AlikeOn [Store σ] [Store τ] (within : OutputRef → Prop) : Prop where
  find? {s : σ} {t : τ} (related : R s t) {r : OutputRef} (inside : within r) :
    Store.find? s r = Store.find? t r
  insert {s : σ} {t : τ} (related : R s t) (r : OutputRef) (entry : Utxo) :
    SameCall R (Store.insert s r entry) (Store.insert t r entry)
  remove {s : σ} {t : τ} (related : R s t) {r : OutputRef} (inside : within r) :
    SameCall R (Store.remove s r) (Store.remove t r)

/-- Outcomes of going through outputs that differ in their stores alone, which are related. -/
def SameAllocation (a : Allocation σ) (b : Allocation τ) : Prop :=
  ∃ t, b = { a with store := t } ∧ R a.store t

/-- Outcomes of classifying that differ in their stores alone, which are related. -/
def SameClassified (c : Classified σ) (d : Classified τ) : Prop :=
  ∃ t, d = { c with store := t } ∧ R c.store t

variable {R}

theorem SameAllocation.cons {a : Allocation σ} {b : Allocation τ} (same : SameAllocation R a b)
    (o : TxOutput) : SameAllocation R (a.cons o) (b.cons o) := by
  obtain ⟨t, rfl, related⟩ := same
  exact ⟨t, rfl, related⟩

theorem Alike.on [Store σ] [Store τ] (alike : Alike R) (within : OutputRef → Prop) :
    AlikeOn R within where
  find? related r _ := alike.find? related r
  insert := alike.insert
  remove related r _ := alike.remove related r

end

/-- What is recognized is listed. -/
theorem recognizedRefs_subset (refs : List OutputRef) (values : List (Option UInt64)) :
    recognizedRefs refs values ⊆ refs := by
  intro r member
  obtain ⟨e, kept, rfl⟩ := List.mem_map.1 member
  exact (List.of_mem_zip (List.mem_filter.1 kept).1).1

section

variable {σ τ : Type} [Store σ] [Store τ] {R : σ → τ → Prop} {s : σ} {t : τ}

namespace AlikeOn

variable {within : OutputRef → Prop}

/-! ## Inputs -/

theorem recognizeFrom (alike : AlikeOn R within) (related : R s t) (txId : String)
    (seen : List OutputRef) (total : UInt64) {refs : List OutputRef} (inside : ∀ r ∈ refs, within r) :
    recognizeFrom s txId seen total refs = recognizeFrom t txId seen total refs := by
  induction refs generalizing seen total with
  | nil => rfl
  | cons r rest ih =>
    obtain ⟨first, inside⟩ := List.forall_mem_cons.1 inside
    simp only [TokenLedger.recognizeFrom, alike.find? related first, ih _ _ inside]

theorem spend (alike : AlikeOn R within) (related : R s t) {refs : List OutputRef}
    (inside : ∀ r ∈ refs, within r) : SameCall R (spend s refs) (spend t refs) := by
  induction refs generalizing s t with
  | nil => exact ⟨_, s, t, rfl, rfl, related⟩
  | cons r rest ih =>
    obtain ⟨head, inside⟩ := List.forall_mem_cons.1 inside
    obtain ⟨answer, s', t', first, second, next⟩ := alike.remove related head
    simp only [TokenLedger.spend, first, second]
    cases answer with
    | ok found? => exact ih next inside
    | error e => exact ⟨_, s', t', rfl, rfl, next⟩

theorem spendRecognized (alike : AlikeOn R within) (related : R s t) (txId : String)
    {refs : List OutputRef} (inside : ∀ r ∈ refs, within r) (values : List (Option UInt64))
    (balance? : Option Balance) :
    SameCall R (spendRecognized txId refs values balance? s)
      (spendRecognized txId refs values balance? t) := by
  cases balance? with
  | none => exact ⟨_, s, t, rfl, rfl, related⟩
  | some balance =>
    have listed : ∀ r ∈ recognizedRefs refs values, within r :=
      fun r member => inside r (recognizedRefs_subset refs values member)
    obtain ⟨answer, s', t', first, second, next⟩ := alike.spend related listed
    simp only [TokenLedger.spendRecognized, first, second]
    cases answer <;> exact ⟨_, s', t', rfl, rfl, next⟩

theorem evaluateInputs (alike : AlikeOn R within) (related : R s t) {tx : Tx}
    (inside : ∀ r ∈ tx.inputs.map TxInput.ref, within r) :
    SameCall R (evaluateInputs tx s) (evaluateInputs tx t) := by
  simp only [TokenLedger.evaluateInputs, recognize, alike.recognizeFrom related _ _ _ inside]
  cases TokenLedger.recognizeFrom t tx.id [] 0 (tx.inputs.map TxInput.ref) with
  | error e => exact ⟨_, s, t, rfl, rfl, related⟩
  | ok found => exact alike.spendRecognized related _ inside ..

/-! ## Outputs -/

theorem allocate (alike : AlikeOn R within) (related : R s t) (txId : String) (height : UInt64)
    (position : Nat) (outputs : List TxOutput) (kind : TxKind) (balance : Balance)
    (closed : Bool) :
    SameAllocation R (allocate txId height position outputs kind balance closed s)
      (allocate txId height position outputs kind balance closed t) := by
  induction outputs generalizing position kind balance closed s t with
  | nil => exact ⟨t, rfl, related⟩
  | cons o rest ih =>
    simp only [TokenLedger.allocate]
    cases o.data? with
    | some data => exact (ih related ..).cons _
    | none =>
      dsimp only
      split
      · obtain ⟨answer, s', t', first, second, next⟩ :=
          alike.insert related ⟨txId, UInt32.ofNat position⟩
            { value := o.value, height, role := .token }
        simp only [first, second]
        cases answer with
        | ok => exact (ih next ..).cons _
        | error e => exact ⟨t', rfl, next⟩
      · exact (ih related ..).cons _

theorem evaluateOutputs (alike : AlikeOn R within) (related : R s t) (tx : Tx) (height : UInt64)
    (balance : Balance) (closed : Bool) :
    SameAllocation R (evaluateOutputs tx height balance closed s)
      (evaluateOutputs tx height balance closed t) := by
  obtain ⟨t', same, next⟩ :=
    alike.allocate related tx.id height 0 tx.outputs tx.kind balance closed
  simp only [TokenLedger.evaluateOutputs, same]
  split <;> exact ⟨t', rfl, next⟩

/-! ## Transactions -/

theorem classify (alike : AlikeOn R within) (related : R s t) (height : UInt64) {tx : Tx}
    (inside : ∀ r ∈ tx.inputs.map TxInput.ref, within r) :
    SameClassified R (classify height tx s) (classify height tx t) := by
  obtain ⟨answer, s', t', first, second, next⟩ := alike.evaluateInputs related inside
  simp only [TokenLedger.classify, first, second]
  cases answer with
  | error e => exact ⟨t', rfl, next⟩
  | ok inputs =>
    dsimp only
    split
    · obtain ⟨t', same, next⟩ := alike.evaluateOutputs next (tx.recognized inputs.values) height
        inputs.balance false
      simp only [same]
      split <;> exact ⟨t', rfl, next⟩
    · exact ⟨t', rfl, next⟩

theorem insertAll (alike : AlikeOn R within) (related : R s t) (entries : List (OutputRef × Utxo)) :
    SameCall R (insertAll s entries) (insertAll t entries) := by
  induction entries generalizing s t with
  | nil => exact ⟨_, s, t, rfl, rfl, related⟩
  | cons e rest ih =>
    obtain ⟨r, entry⟩ := e
    obtain ⟨answer, s', t', first, second, next⟩ := alike.insert related r entry
    simp only [TokenLedger.insertAll, first, second]
    cases answer with
    | ok => exact ih next
    | error e => exact ⟨_, s', t', rfl, rfl, next⟩

/-- Stores that are alike on the inputs of a transaction derive the same record of it. -/
theorem deriveTx (alike : AlikeOn R within) (related : R s t) (g : Genesis) (height : UInt64)
    (raw : RawTx) (inside : ∀ r ∈ raw.inputs, within r) :
    SameCall R (deriveTx g height raw s) (deriveTx g height raw t) := by
  have listed : (Tx.ofRaw raw height).inputs.map TxInput.ref = raw.inputs :=
    congrArg RawTx.inputs (toRaw_ofRaw raw height)
  rw [← listed] at inside
  simp only [TokenLedger.deriveTx]
  split
  · obtain ⟨answer, s', t', first, second, next⟩ :=
      alike.insertAll related ((Tx.ofRaw raw height).issued.entries height)
    simp only [first, second]
    cases answer <;> exact ⟨_, s', t', rfl, rfl, next⟩
  · obtain ⟨t', same, next⟩ := alike.classify related height inside
    simp only [same]
    split <;> exact ⟨_, _, t', rfl, rfl, next⟩

end AlikeOn

/-! ## All transactions of a block -/

/-- Related stores derive the same records, or refuse the same transactions, and are still related
then. -/
theorem Alike.deriveTxs (alike : Alike R) (related : R s t) (g : Genesis) (height : UInt64)
    (raws : List RawTx) :
    SameCall R (deriveTxs g height raws s) (deriveTxs g height raws t) := by
  induction raws generalizing s t with
  | nil => exact ⟨_, s, t, rfl, rfl, related⟩
  | cons raw rest ih =>
    have single := alike.on fun _ => True
    obtain ⟨answer, s', t', first, second, next⟩ :=
      single.deriveTx related g height raw fun _ _ => trivial
    simp only [TokenLedger.deriveTxs, first, second]
    cases answer with
    | error e => exact ⟨_, s', t', rfl, rfl, next⟩
    | ok tx? =>
      obtain ⟨answer, s'', t'', later, later', last⟩ := ih next
      simp only [later, later']
      cases answer <;> exact ⟨_, s'', t'', rfl, rfl, last⟩

end

end TokenLedger
