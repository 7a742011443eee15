import TokenLedger.Classification.Outputs
import TokenLedger.Proofs.Record
import TokenLedger.Proofs.Store.Holding

/-!
What going through outputs does. On a store that holds a set it always comes to its end; it makes an
entry for each token output, and what those entries bear is what the balance has lost
(`evaluateOutputs_faithful`).
-/

namespace TokenLedger

/-- An output that took token carries no data, and took its whole value, which is not nothing. -/
def TxOutput.Paid (o : TxOutput) : Prop :=
  o.role = .token → o.data? = none ∧ o.tokenValue = o.value ∧ 0 < o.value.toNat

/-- Outputs were gone through from a position on, on top of a store, and everything is accounted
for. -/
structure Allocation.Faithful {σ : Type} [Store σ] (a : Allocation σ) (txId : String)
    (height : UInt64) (position : Nat) (outputs : List TxOutput) (balance : Balance) (s : σ) :
    Prop where
  ended : a.ended = .ok ()
  made : perform s (creations (entriesFrom txId height position a.outputs)) = (.ok (), a.store)
  balanced : tokenTotal a.outputs + a.balance.value = balance.value
  notOverdrawn : 0 ≤ balance.value → 0 ≤ a.balance.value
  unaltered : a.outputs.map TxOutput.toRaw = outputs.map TxOutput.toRaw
  placed : a.outputs.map TxOutput.index = outputs.map TxOutput.index
  paid : ∀ o ∈ a.outputs, o.Paid

/-- Paying is taking the value off the balance, which never leaves the word. -/
theorem Balance.subtract_eq_ok_pay {b : Balance} {value : UInt64} (covered : b.Covers value) :
    b.subtract value.toNat = .ok (b.pay value covered) := by
  obtain ⟨⟨left, fits⟩, subtracted, same⟩ := subtract_eq_ok_of_covers covered
  rw [subtracted]
  obtain rfl : left = b.value - value.toNat := same
  rfl

theorem governed_ne_token (isLast : Bool) (kind : TxKind) (data : Bytes) :
    (governed isLast kind data).2 ≠ .token := by
  intro token
  unfold governed at token
  split at token
  · cases token
  · split at token
    · split at token
      · cases token
      · split at token <;> cases token
    · cases token

theorem governed_ne_genesis (isLast : Bool) {kind : TxKind} (data : Bytes)
    (other : kind ≠ .genesis) : (governed isLast kind data).1 ≠ .genesis := by
  intro genesis
  unfold governed at genesis
  split at genesis
  · exact other genesis
  · split at genesis
    · split at genesis
      · cases genesis
      · split at genesis <;> cases genesis
    · cases genesis

section

variable {σ : Type} [Store σ] {txId : String} {height : UInt64} {position : Nat}
  {rest : List TxOutput} {balance : Balance} {s : σ}

/-- What outputs say makes no transaction the issue. -/
theorem allocate_ne_genesis (txId : String) (height : UInt64) (position : Nat)
    (outputs : List TxOutput) {kind : TxKind} (other : kind ≠ .genesis) (balance : Balance)
    (closed : Bool) (s : σ) :
    (allocate txId height position outputs kind balance closed s).kind ≠ .genesis := by
  induction outputs generalizing position kind balance closed s with
  | nil => exact other
  | cons o rest ih =>
    unfold allocate
    split
    · rename_i data _
      exact ih _ (governed_ne_genesis rest.isEmpty data other) _ _ _
    · split
      · dsimp only
        split
        · exact ih _ other _ _ _
        · exact other
      · exact ih _ other _ _ _

/-- An output that takes no token leaves the rest as it is. -/
theorem Allocation.Faithful.cons_other {a : Allocation σ}
    (later : a.Faithful txId height (position + 1) rest balance s) {o o' : TxOutput}
    (other : o'.role ≠ .token) (unaltered : o'.toRaw = o.toRaw) (placed : o'.index = o.index) :
    (a.cons o').Faithful txId height position (o :: rest) balance s where
  ended := later.ended
  made := by
    rw [Allocation.cons, entriesFrom_cons_other other]
    exact later.made
  balanced := by
    rw [Allocation.cons, tokenTotal_cons_other other]
    exact later.balanced
  notOverdrawn := later.notOverdrawn
  unaltered := by
    rw [Allocation.cons, List.map_cons, List.map_cons, unaltered, later.unaltered]
  placed := by
    rw [Allocation.cons, List.map_cons, List.map_cons, placed, later.placed]
  paid := by
    intro out member
    rcases List.mem_cons.1 member with rfl | member
    · intro token
      exact absurd token other
    · exact later.paid out member

/-- An output that is paid makes its entry, and the rest goes on with what is left. -/
theorem Allocation.Faithful.cons_paid {a : Allocation σ} {o : TxOutput} {s' : σ}
    (noData : o.data? = none) (covered : balance.Covers o.value)
    (inserted : Store.insert s ⟨txId, UInt32.ofNat position⟩
      { value := o.value, height, role := .token } = (.ok (), s'))
    (later : a.Faithful txId height (position + 1) rest (balance.pay o.value covered) s') :
    (a.cons { o with tokenValue := o.value, role := .token }).Faithful txId height position
      (o :: rest) balance s where
  ended := later.ended
  made := by
    rw [Allocation.cons, entriesFrom_cons_token rfl, creations_cons, perform_insert_cons inserted]
    exact later.made
  balanced := by
    have sum := later.balanced
    rw [Allocation.cons, tokenTotal_cons_token rfl]
    simp only [Balance.pay] at sum ⊢
    omega
  notOverdrawn := by
    intro _
    refine later.notOverdrawn ?_
    have enough := covered.2
    simp only [Balance.pay]
    omega
  unaltered := by
    rw [Allocation.cons, List.map_cons, List.map_cons, later.unaltered]
    rfl
  placed := by
    rw [Allocation.cons, List.map_cons, List.map_cons, later.placed]
  paid := by
    intro out member
    rcases List.mem_cons.1 member with rfl | member
    · intro _
      exact ⟨noData, rfl, covered.1⟩
    · exact later.paid out member

theorem allocate_faithful [LawfulStore σ] {u : UnspentSet} (holds : Holds s u) (txId : String)
    (height : UInt64) (position : Nat) (outputs : List TxOutput) (kind : TxKind)
    (balance : Balance) (closed : Bool) :
    (allocate txId height position outputs kind balance closed s).Faithful txId height position
      outputs balance s := by
  induction outputs generalizing position kind balance closed s u with
  | nil =>
    refine ⟨rfl, rfl, ?_, id, rfl, rfl, ?_⟩
    · exact Int.zero_add _
    · intro o member
      cases member
  | cons o rest ih =>
    obtain ⟨index, value, data?, tokenValue, role⟩ := o
    cases data? with
    | some data =>
      exact (ih holds _ _ _ _).cons_other (governed_ne_token rest.isEmpty kind data) rfl rfl
    | none =>
      simp only [allocate]
      split
      · rename_i open_covered
        obtain ⟨s', inserted, holds'⟩ := LawfulStore.insert_holds holds
          ⟨txId, UInt32.ofNat position⟩ { value, height, role := .token }
        simp only [inserted]
        exact .cons_paid (o := ⟨index, value, none, tokenValue, role⟩) rfl open_covered.2 inserted
          (ih holds' _ _ _ _)
      · refine (ih holds _ _ _ _).cons_other ?_ rfl rfl
        intro token
        cases token

end

/-! ## The output that would be paid -/

theorem mem_markCandidate {outputs : List TxOutput} {o : TxOutput}
    (member : o ∈ markCandidate outputs) :
    o ∈ outputs ∨ ∃ o' ∈ outputs, o'.role = .native ∧ o = { o' with role := .issuanceCandidate } := by
  fun_induction markCandidate outputs with
  | case1 first last asks =>
    rcases List.mem_cons.1 member with rfl | member
    · exact .inr ⟨first, List.mem_cons_self, asks.2, rfl⟩
    · exact .inl (List.mem_cons_of_mem _ member)
  | case2 first last asks => exact .inl member
  | case3 first rest several ih =>
    rcases List.mem_cons.1 member with rfl | member
    · exact .inl List.mem_cons_self
    · rcases ih member with before | ⟨o', listed, native, rfl⟩
      · exact .inl (List.mem_cons_of_mem _ before)
      · exact .inr ⟨o', List.mem_cons_of_mem _ listed, native, rfl⟩
  | case4 => exact .inl member

/-- What does not look at the role of an output is the same for all of them. -/
theorem map_markCandidate {β : Type} (view : TxOutput → β)
    (blind : ∀ (o : TxOutput) (role : OutputRole), view { o with role } = view o)
    (outputs : List TxOutput) : (markCandidate outputs).map view = outputs.map view := by
  fun_induction markCandidate outputs with
  | case1 first last asks => exact congrArg (· :: [view last]) (blind first _)
  | case2 first last asks => rfl
  | case3 first rest several ih => rw [List.map_cons, List.map_cons, ih]
  | case4 => rfl

/-- What passes over the outputs that take no token is the same before and after. -/
theorem view_markCandidate {β : Type} {view : Nat → List TxOutput → β}
    (passes : ∀ position o o' rest, o.role ≠ .token → o'.role ≠ .token →
      view position (o :: rest) = view position (o' :: rest))
    (deeper : ∀ position o rest rest', view (position + 1) rest = view (position + 1) rest' →
      view position (o :: rest) = view position (o :: rest'))
    (position : Nat) (outputs : List TxOutput) :
    view position (markCandidate outputs) = view position outputs := by
  fun_induction markCandidate outputs generalizing position with
  | case1 first last asks =>
    refine passes _ _ _ _ ?_ ?_
    · intro token
      cases token
    · rw [asks.2]
      decide
  | case2 first last asks => rfl
  | case3 first rest several ih => exact deeper _ _ _ _ (ih (position + 1))
  | case4 => rfl

theorem entriesFrom_markCandidate (txId : String) (height : UInt64) (position : Nat)
    (outputs : List TxOutput) :
    entriesFrom txId height position (markCandidate outputs)
      = entriesFrom txId height position outputs := by
  refine view_markCandidate (fun position o o' rest other other' => ?_)
    (fun position o rest rest' same => ?_) position outputs
  · rw [entriesFrom_cons_other other, entriesFrom_cons_other other']
  · by_cases token : o.role = .token
    · rw [entriesFrom_cons_token token, entriesFrom_cons_token token, same]
    · rw [entriesFrom_cons_other token, entriesFrom_cons_other token, same]

theorem evaluateOutputs_of_ended {σ : Type} [Store σ] {tx : Tx} {height : UInt64}
    {balance : Balance} {closed : Bool} {s : σ} {a : Allocation σ}
    (gone : allocate tx.id height 0 tx.outputs tx.kind balance closed s = a)
    (ended : a.ended = .ok ()) :
    evaluateOutputs tx height balance closed s
      = { a with outputs := markCandidate a.outputs } := by
  simp only [evaluateOutputs, gone, ended]

theorem evaluateOutputs_faithful {σ : Type} [Store σ] [LawfulStore σ] {s : σ} {u : UnspentSet}
    (holds : Holds s u) (tx : Tx) (height : UInt64) (balance : Balance) (closed : Bool) :
    (evaluateOutputs tx height balance closed s).Faithful tx.id height 0 tx.outputs balance s := by
  have whole := allocate_faithful holds tx.id height 0 tx.outputs tx.kind balance closed
  rw [evaluateOutputs_of_ended rfl whole.ended]
  refine ⟨whole.ended, ?_, ?_, whole.notOverdrawn, ?_, ?_, ?_⟩
  · rw [entriesFrom_markCandidate]
    exact whole.made
  · rw [← total_entriesFrom tx.id height 0, entriesFrom_markCandidate, total_entriesFrom]
    exact whole.balanced
  · rw [map_markCandidate TxOutput.toRaw fun _ _ => rfl]
    exact whole.unaltered
  · rw [map_markCandidate TxOutput.index fun _ _ => rfl]
    exact whole.placed
  · intro o member
    rcases mem_markCandidate member with before | ⟨o', -, -, rfl⟩
    · exact whole.paid o before
    · intro token
      cases token

end TokenLedger
