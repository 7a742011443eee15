import Mathlib.Algebra.BigOperators.Group.List.Basic
import Mathlib.Data.List.Dedup
import TokenLedger.Classification.Inputs
import TokenLedger.Proofs.Store.Holding

/-!
What the inputs of a transaction find in a set. `foundValues` says it without a store and without a
running sum: the value under a reference where it is listed first, nothing where it is listed again.
Looking up and adding up comes out as that (`recognizeFrom_eq`), and what is spent are different
references whose values are those found (`evaluateInputs_cases`). Together the values are what the
references are worth, each of them counted once (`worth_eq_foundTotal`).
-/

namespace TokenLedger

/-- The values that a set has under references, each counted where it is listed first. -/
def foundValues (u : UnspentSet) : (seen : List OutputRef) → List OutputRef → List (Option UInt64)
  | _, [] => []
  | seen, r :: rest =>
    if r ∈ seen then none :: foundValues u seen rest
    else (u.find? r).map Utxo.value :: foundValues u (r :: seen) rest

/-- The sum of the values that were found. -/
def foundTotal (values : List (Option UInt64)) : Nat := Amount.total (values.filterMap id)

@[simp] theorem foundTotal_some_cons (v : UInt64) (values : List (Option UInt64)) :
    foundTotal (some v :: values) = v.toNat + foundTotal values := rfl

section References

variable (u : UnspentSet)

@[simp] theorem length_foundValues (seen refs : List OutputRef) :
    (foundValues u seen refs).length = refs.length := by
  induction refs generalizing seen with
  | nil => rfl
  | cons r rest ih =>
    simp only [foundValues]
    split <;> simp [ih]

theorem recognizedRefs_none_cons (r : OutputRef) (refs : List OutputRef)
    (values : List (Option UInt64)) :
    recognizedRefs (r :: refs) (none :: values) = recognizedRefs refs values := rfl

theorem recognizedRefs_some_cons (r : OutputRef) (v : UInt64) (refs : List OutputRef)
    (values : List (Option UInt64)) :
    recognizedRefs (r :: refs) (some v :: values) = r :: recognizedRefs refs values := rfl

/-- The references that are recognized are those that are listed, new, and in the set. -/
theorem mem_recognizedRefs_iff {seen refs : List OutputRef} {r : OutputRef} :
    r ∈ recognizedRefs refs (foundValues u seen refs)
      ↔ r ∈ refs ∧ r ∉ seen ∧ (u.find? r).isSome := by
  induction refs generalizing seen with
  | nil => simp [foundValues, recognizedRefs]
  | cons head rest ih =>
    simp only [foundValues]
    split
    · rename_i known
      rw [recognizedRefs_none_cons, ih, List.mem_cons]
      constructor
      · rintro ⟨listed, fresh, present⟩
        exact ⟨.inr listed, fresh, present⟩
      · rintro ⟨rfl | listed, fresh, present⟩
        · exact absurd known fresh
        · exact ⟨listed, fresh, present⟩
    · rename_i fresh
      cases found : u.find? head with
      | none =>
        rw [Option.map_none, recognizedRefs_none_cons, ih, List.mem_cons, List.mem_cons]
        constructor
        · rintro ⟨listed, apart, present⟩
          exact ⟨.inr listed, fun known => apart (.inr known), present⟩
        · rintro ⟨rfl | listed, notSeen, present⟩
          · simp [found] at present
          · refine ⟨listed, ?_, present⟩
            rintro (rfl | known)
            · simp [found] at present
            · exact notSeen known
      | some entry =>
        rw [Option.map_some, recognizedRefs_some_cons, List.mem_cons, ih, List.mem_cons,
          List.mem_cons]
        constructor
        · rintro (rfl | ⟨listed, apart, present⟩)
          · exact ⟨.inl rfl, fresh, by simp [found]⟩
          · exact ⟨.inr listed, fun known => apart (.inr known), present⟩
        · rintro ⟨listed, notSeen, present⟩
          by_cases same : r = head
          · exact .inl same
          · refine .inr ⟨listed.resolve_left same, ?_, present⟩
            rintro (again | known)
            · exact same again
            · exact notSeen known

/-- No reference is recognized twice. -/
theorem nodup_recognizedRefs (seen refs : List OutputRef) :
    (recognizedRefs refs (foundValues u seen refs)).Nodup := by
  induction refs generalizing seen with
  | nil => exact .nil
  | cons r rest ih =>
    simp only [foundValues]
    split
    · exact ih seen
    · cases found : u.find? r with
      | none => exact ih (r :: seen)
      | some entry =>
        rw [Option.map_some, recognizedRefs_some_cons]
        refine List.nodup_cons.2 ⟨fun again => ?_, ih (r :: seen)⟩
        exact ((mem_recognizedRefs_iff u).1 again).2.1 List.mem_cons_self

/-- The values found are those under the recognized references. -/
theorem sum_map_recognizedRefs (seen refs : List OutputRef) :
    ((recognizedRefs refs (foundValues u seen refs)).map (UnspentSet.valueUnder u)).sum
      = foundTotal (foundValues u seen refs) := by
  induction refs generalizing seen with
  | nil => rfl
  | cons r rest ih =>
    simp only [foundValues]
    split
    · exact ih seen
    · cases found : u.find? r with
      | none => exact ih (r :: seen)
      | some entry =>
        rw [Option.map_some, recognizedRefs_some_cons, List.map_cons, List.sum_cons,
          UnspentSet.valueUnder_of_find? found, ih, foundTotal_some_cons]

end References

/-! ## What references are worth -/

section Worth

variable {σ : Type} [Store σ]

/-- The token value that a store has under a reference; where nothing is found there is none. -/
def valueFound (s : σ) (r : OutputRef) : Nat :=
  match Store.find? s r with
  | .ok (some entry) => entry.value.toNat
  | _ => 0

/-- The token value that a store has under references, each of them counted once. -/
def worth (s : σ) (refs : List OutputRef) : Nat := (refs.dedup.map (valueFound s)).sum

theorem Holds.valueFound_eq {s : σ} {u : UnspentSet} (holds : Holds s u) (r : OutputRef) :
    valueFound s r = u.valueUnder r := by
  unfold valueFound UnspentSet.valueUnder
  rw [holds r]
  cases u.find? r <;> rfl

theorem worth_eq_sum {s : σ} {u : UnspentSet} (holds : Holds s u) (refs : List OutputRef) :
    worth s refs = (refs.dedup.map u.valueUnder).sum := by
  rw [worth, funext holds.valueFound_eq]

/-- References under which there is nothing add nothing to a sum of values. -/
theorem sum_map_valueUnder_filter (u : UnspentSet) (refs : List OutputRef) :
    ((refs.filter fun r => (u.find? r).isSome).map u.valueUnder).sum
      = (refs.map u.valueUnder).sum := by
  induction refs with
  | nil => rfl
  | cons r rest ih =>
    cases found : u.find? r with
    | none =>
      rw [List.filter_cons_of_neg (by simp [found]), ih, List.map_cons, List.sum_cons,
        UnspentSet.valueUnder_of_find?_none found, Nat.zero_add]
    | some entry =>
      rw [List.filter_cons_of_pos (by simp [found]), List.map_cons, List.map_cons, List.sum_cons,
        List.sum_cons, ih]

/-- What is found behind references is what they are worth. -/
theorem worth_eq_foundTotal {s : σ} {u : UnspentSet} (holds : Holds s u) (refs : List OutputRef) :
    worth s refs = foundTotal (foundValues u [] refs) := by
  have known := refs.nodup_dedup.filter fun r => (u.find? r).isSome
  have same : (recognizedRefs refs (foundValues u [] refs)).Perm
      (refs.dedup.filter fun r => (u.find? r).isSome) := by
    rw [List.perm_ext_iff_of_nodup (nodup_recognizedRefs u [] refs) known]
    intro r
    rw [mem_recognizedRefs_iff, List.mem_filter, List.mem_dedup]
    simp
  rw [worth_eq_sum holds, ← sum_map_valueUnder_filter, ← sum_map_recognizedRefs]
  exact (same.map u.valueUnder).sum_eq.symm

/-- References are never worth more than the whole set. -/
theorem worth_le_totalValue {s : σ} {u : UnspentSet} (holds : Holds s u) (refs : List OutputRef) :
    worth s refs ≤ u.totalValue := by
  have ended := UnspentSet.totalValue_endings (u := u) refs.nodup_dedup
  rw [worth_eq_sum holds]
  omega

end Worth

/-! ## Going through the inputs -/

section

variable {σ : Type} [Store σ]

/-- Looking references up in a store that holds a set finds the values of the set, unless their sum
does not fit. -/
theorem recognizeFrom_eq {s : σ} {u : UnspentSet} (holds : Holds s u) (txId : String)
    (seen : List OutputRef) (total : UInt64) (refs : List OutputRef) :
    recognizeFrom s txId seen total refs
      = match Amount.sumFrom total ((foundValues u seen refs).filterMap id) with
        | .ok sum => .ok ⟨foundValues u seen refs, sum⟩
        | .error _ => .error (.balanceOverflow txId) := by
  -- What was seen and the sum so far both grow along the references.
  induction refs generalizing seen total with
  | nil => rfl
  | cons r rest ih =>
    simp only [recognizeFrom, foundValues]
    split
    · rw [ih seen total, List.filterMap_cons_none rfl]
      cases Amount.sumFrom total ((foundValues u seen rest).filterMap id) <;> rfl
    · rw [holds r]
      cases u.find? r with
      | none =>
        simp only [Option.map_none]
        rw [ih (r :: seen) total, List.filterMap_cons_none rfl]
        cases Amount.sumFrom total ((foundValues u (r :: seen) rest).filterMap id) <;> rfl
      | some entry =>
        simp only [Option.map_some]
        have first : (some entry.value :: foundValues u (r :: seen) rest).filterMap id
            = entry.value :: (foundValues u (r :: seen) rest).filterMap id := rfl
        rw [first, Amount.sumFrom, Amount.add]
        cases Amount.add? total entry.value with
        | none => rfl
        | some next =>
          simp only []
          rw [ih (r :: seen) next]
          cases Amount.sumFrom next ((foundValues u (r :: seen) rest).filterMap id) <;> rfl

/-- Either the values found fit together into a word, or looking them up is refused. -/
theorem recognize_cases {s : σ} {u : UnspentSet} (holds : Holds s u) (txId : String)
    (refs : List OutputRef) :
    (∃ found, recognize s txId refs = .ok found ∧ found.values = foundValues u [] refs
      ∧ found.total.toNat = foundTotal (foundValues u [] refs))
    ∨ (recognize s txId refs = .error (.balanceOverflow txId)
      ∧ UInt64.size ≤ foundTotal (foundValues u [] refs)) := by
  simp only [recognize, recognizeFrom_eq holds]
  cases added : Amount.sumFrom 0 ((foundValues u [] refs).filterMap id) with
  | ok sum =>
    rw [Amount.sumFrom_eq_ok_iff] at added
    exact .inl ⟨_, rfl, rfl, added.symm.trans (Nat.zero_add _)⟩
  | error o =>
    refine .inr ⟨rfl, Nat.le_of_not_lt fun small => ?_⟩
    have fits := Amount.sum_eq_ok small
    rw [Amount.sum, added] at fits
    cases fits

/-- Taking entries out is making the changes that end them. -/
theorem spend_eq_perform (s : σ) (refs : List OutputRef) : spend s refs = perform s (endings refs) := by
  induction refs generalizing s with
  | nil => rfl
  | cons r rest ih =>
    simp only [spend, perform, endings_cons, applyEach]
    cases Store.remove s r with
    | mk answer next =>
      cases answer with
      | ok => exact ih next
      | error => rfl

variable [LawfulStore σ]

/-- The inputs of a transaction bring in what they find in the set that the store holds, and spend
it; only a sum that a balance cannot hold is refused, and then nothing is spent. -/
theorem evaluateInputs_cases {s : σ} {u : UnspentSet} (holds : Holds s u) (tx : Tx)
    {refs : List OutputRef} (listed : tx.inputs.map TxInput.ref = refs) :
    (∃ balance s', evaluateInputs tx s = (.ok ⟨balance, foundValues u [] refs⟩, s')
      ∧ balance.value = foundTotal (foundValues u [] refs)
      ∧ perform s (endings (recognizedRefs refs (foundValues u [] refs))) = (.ok (), s'))
    ∨ (evaluateInputs tx s = (.error (.balanceOverflow tx.id), s)
      ∧ 0x8000000000000000 ≤ foundTotal (foundValues u [] refs)) := by
  simp only [evaluateInputs, listed]
  rcases recognize_cases holds tx.id refs with ⟨found, recognized, values, total⟩ | ⟨refused, large⟩
  · rw [recognized]
    dsimp only
    rw [values]
    cases made : Balance.ofInt? found.total.toNat with
    | some balance =>
      obtain ⟨after, spent, _⟩ :=
        perform_holds holds (endings (recognizedRefs refs (foundValues u [] refs)))
      refine .inl ⟨balance, after, ?_, ?_, spent⟩
      · simp only [spendRecognized, spend_eq_perform, spent]
      · rw [Balance.ofInt?_eq_some_iff.1 made, total]
    | none =>
      refine .inr ⟨rfl, ?_⟩
      rw [Balance.ofInt?_eq_none_iff, fitsWord_natCast_iff, total] at made
      exact Nat.le_of_not_lt made
  · rw [refused]
    exact .inr ⟨rfl, Nat.le_trans (by decide) large⟩

end

end TokenLedger
