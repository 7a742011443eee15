import Mathlib.Algebra.BigOperators.Group.Finset.Basic
import TokenLedger.Proofs.Classification.Inputs

/-!
What the inputs of a transaction bring in, told without going through them one after the other. It is
the sum, however large, of what the set has under the different references that are listed
(`UnspentSet.known`). A balance that cannot hold it is refused before anything is spent, and otherwise
just these entries end. Neither the order of the inputs nor listing one again changes any of that
(`brought_in_exactly`).
-/

namespace TokenLedger

/-- The references of a list under which a set has entries. -/
def UnspentSet.known (u : UnspentSet) (refs : List OutputRef) : Finset OutputRef :=
  refs.toFinset.filter fun r => (u.find? r).isSome

/-- The positions of the inputs that were recognized, in order, and what was found there. -/
def InputEvaluation.recognized (inputs : InputEvaluation) : List (Nat × UInt64) :=
  inputs.values.zipIdx.filterMap fun e => e.1.map fun v => (e.2, v)

namespace UnspentSet

variable (u : UnspentSet)

theorem mem_known_iff {refs : List OutputRef} {r : OutputRef} :
    r ∈ u.known refs ↔ r ∈ refs ∧ (u.find? r).isSome := by
  simp [known]

theorem known_eq_of_perm {refs refs' : List OutputRef} (same : refs.Perm refs') :
    u.known refs = u.known refs' := by
  rw [known, known, List.toFinset_eq_of_perm refs refs' same]

theorem toFinset_recognizedRefs (refs : List OutputRef) :
    (recognizedRefs refs (foundValues u [] refs)).toFinset = u.known refs := by
  ext r
  rw [List.mem_toFinset, mem_recognizedRefs_iff, mem_known_iff]
  simp

theorem foundTotal_eq_sum (refs : List OutputRef) :
    foundTotal (foundValues u [] refs) = ∑ r ∈ u.known refs, u.valueUnder r := by
  rw [← sum_map_recognizedRefs, ← toFinset_recognizedRefs,
    List.sum_toFinset _ (nodup_recognizedRefs u [] refs)]

/-- What stands at a position is what is found behind its reference, if it is not listed earlier. -/
theorem getElem?_foundValues (seen refs : List OutputRef) (i : Nat) :
    (foundValues u seen refs)[i]?
      = refs[i]?.map fun r =>
        if r ∈ seen ∨ r ∈ refs.take i then none else (u.find? r).map Utxo.value := by
  induction refs generalizing seen i with
  | nil => rfl
  | cons head rest ih =>
    cases i with
    | zero =>
      by_cases repeated : head ∈ seen <;> simp [foundValues, repeated]
    | succ i =>
      by_cases repeated : head ∈ seen
      · have same (r : OutputRef) : r ∈ seen ∨ r = head ∨ r ∈ rest.take i ↔ r ∈ seen ∨ r ∈ rest.take i := by
          constructor
          · rintro (known | rfl | earlier)
            · exact .inl known
            · exact .inl repeated
            · exact .inr earlier
          · rintro (known | earlier)
            · exact .inl known
            · exact .inr (.inr earlier)
        simp [foundValues, repeated, ih, same]
      · have same (r : OutputRef) : (r = head ∨ r ∈ seen) ∨ r ∈ rest.take i
            ↔ r ∈ seen ∨ r = head ∨ r ∈ rest.take i := by
          rw [or_comm (a := r = head), or_assoc]
        simp [foundValues, repeated, ih, same]

/-- A value stands at the first position of its reference and nowhere else. -/
theorem getElem?_foundValues_eq_some_iff {refs : List OutputRef} {i : Nat} {v : UInt64} :
    (foundValues u [] refs)[i]? = some (some v)
      ↔ ∃ r ∈ u.known refs, refs.idxOf r = i ∧ (u.find? r).map Utxo.value = some v := by
  rw [getElem?_foundValues, Option.map_eq_some_iff]
  constructor
  · rintro ⟨r, place, value⟩
    have listed : r ∈ refs := List.mem_of_getElem? place
    by_cases earlier : r ∈ refs.take i
    · simp [earlier] at value
    · simp only [List.not_mem_nil, earlier, or_self, if_false] at value
      refine ⟨r, ?_, ?_, value⟩
      · rw [mem_known_iff, ← Option.isSome_map, value]
        exact ⟨listed, rfl⟩
      · have upTo : r ∈ refs.take (i + 1) := by
          rw [List.take_add_one, place]
          simp
        rw [List.mem_take_iff_idxOf_lt listed] at earlier upTo
        omega
  · rintro ⟨r, known, rfl, value⟩
    have listed : r ∈ refs := (mem_known_iff u).1 known |>.1
    refine ⟨r, List.getElem?_idxOf listed, ?_⟩
    have first : r ∉ refs.take (refs.idxOf r) := by
      rw [List.mem_take_iff_idxOf_lt listed]
      exact Nat.lt_irrefl _
    simp [first, value]

end UnspentSet

namespace InputEvaluation

variable {inputs : InputEvaluation}

theorem mem_recognized_iff {i : Nat} {v : UInt64} :
    (i, v) ∈ inputs.recognized ↔ inputs.values[i]? = some (some v) := by
  rw [recognized, List.mem_filterMap, ← List.mk_mem_zipIdx_iff_getElem?]
  constructor
  · rintro ⟨⟨value?, j⟩, listed, same⟩
    cases value? with
    | none => cases same
    | some w =>
      cases same
      exact listed
  · intro listed
    exact ⟨_, listed, rfl⟩

theorem recognized_ascends (inputs : InputEvaluation) :
    (inputs.recognized.map Prod.fst).Pairwise (· < ·) := by
  have positions : inputs.values.zipIdx.Pairwise fun a b => a.2 < b.2 := by
    rw [← List.pairwise_map, List.zipIdx_map_snd]
    exact List.pairwise_lt_range'
  rw [List.pairwise_map, recognized]
  refine positions.filterMap _ ?_
  rintro ⟨value?, i⟩ ⟨value?', j⟩ below a made b made'
  cases value? with
  | none => cases made
  | some v =>
    cases value?' with
    | none => cases made'
    | some w =>
      cases made
      cases made'
      exact below

end InputEvaluation

theorem UnspentSet.find?_endings_recognizedRefs (u : UnspentSet) (refs : List OutputRef)
    (r : OutputRef) :
    ((endings (recognizedRefs refs (foundValues u [] refs))).foldl apply u).find? r
      = if r ∈ u.known refs then none else u.find? r := by
  simp only [find?_foldl_endings, ← toFinset_recognizedRefs, List.mem_toFinset]

/-- The inputs of a transaction bring in the sum of what is known of them, or that does not fit. -/
theorem evaluateInputs_known (u : UnspentSet) (tx : Tx) {refs : List OutputRef}
    (listed : tx.inputs.map TxInput.ref = refs) {total : Nat}
    (sum : ∑ r ∈ u.known refs, u.valueUnder r = total) :
    (∃ balance after, evaluateInputs tx u = (.ok ⟨balance, foundValues u [] refs⟩, after)
        ∧ balance.value = total ∧ total ≤ 2 ^ 63 - 1
        ∧ ∀ r, after.find? r = if r ∈ u.known refs then none else u.find? r)
      ∨ (2 ^ 63 - 1 < total ∧ evaluateInputs tx u = (.error (.balanceOverflow tx.id), u)) := by
  have itself : Holds u u := holds_unspentSet_iff.2 rfl
  rcases evaluateInputs_cases itself tx listed with
    ⟨balance, after, evaluated, found, spent⟩ | ⟨refused, large⟩
  · rw [UnspentSet.foundTotal_eq_sum, sum] at found
    have changed : after = _ := holds_unspentSet_iff.1 (holds_of_perform itself spent)
    refine .inl ⟨balance, after, evaluated, found, ?_, fun r => ?_⟩
    · have upper := balance.fits.2
      omega
    · rw [changed, UnspentSet.find?_endings_recognizedRefs]
  · rw [UnspentSet.foundTotal_eq_sum, sum] at large
    exact .inr ⟨by omega, refused⟩

/-- In another order, inputs are refused just the same, or they bring in the same balance and leave
the same set. -/
theorem evaluateInputs_perm (u : UnspentSet) (tx : Tx) {inputs : List TxInput}
    (order : inputs.Perm tx.inputs) :
    (evaluateInputs { tx with inputs } u).1.map InputEvaluation.balance
        = (evaluateInputs tx u).1.map InputEvaluation.balance
      ∧ (evaluateInputs { tx with inputs } u).2 = (evaluateInputs tx u).2 := by
  have known := u.known_eq_of_perm (order.map TxInput.ref)
  have other := evaluateInputs_known u { tx with inputs } rfl rfl
  simp only [known] at other
  rcases evaluateInputs_known u tx rfl rfl with
    ⟨⟨total, _⟩, after, evaluated, rfl, fits, left⟩ | ⟨large, refused⟩
  · rcases other with ⟨⟨total', _⟩, after', evaluated', rfl, _, left'⟩ | ⟨large, _⟩
    · have same : after' = after := SortedMap.ext_find? fun r => by rw [left, left']
      rw [evaluated, evaluated', same]
      exact ⟨rfl, rfl⟩
    · omega
  · rcases other with ⟨_, _, _, _, fits, _⟩ | ⟨_, refused'⟩
    · omega
    · rw [refused, refused']
      exact ⟨rfl, rfl⟩

/-- Let the known references of a transaction be the different ones that it lists and a set has, and
the total the sum of what they bear. The balance overflows exactly if the total is above what a signed
word holds, and then the set stays as it was. Otherwise the balance is the total, each known reference
is recognized where it is listed first, and the set loses just these. The order of the inputs changes
neither the outcome nor the balance nor the set that is left. -/
theorem brought_in_exactly (u : UnspentSet) (tx : Tx) :
    let refs := tx.inputs.map TxInput.ref
    let total := ∑ r ∈ u.known refs, u.valueUnder r
    ((evaluateInputs tx u).1 = .error (.balanceOverflow tx.id) ↔ 2 ^ 63 - 1 < total)
      ∧ (2 ^ 63 - 1 < total → (evaluateInputs tx u).2 = u)
      ∧ (total ≤ 2 ^ 63 - 1 → ∃ inputs after, evaluateInputs tx u = (.ok inputs, after)
        ∧ inputs.balance.value = total
        ∧ (inputs.recognized.map Prod.fst).Pairwise (· < ·)
        ∧ (∀ i v, (i, v) ∈ inputs.recognized
          ↔ ∃ r ∈ u.known refs, refs.idxOf r = i ∧ (u.find? r).map Utxo.value = some v)
        ∧ ∀ r, after.find? r = if r ∈ u.known refs then none else u.find? r)
      ∧ ∀ inputs, inputs.Perm tx.inputs →
        (evaluateInputs { tx with inputs } u).1.map InputEvaluation.balance
            = (evaluateInputs tx u).1.map InputEvaluation.balance
          ∧ (evaluateInputs { tx with inputs } u).2 = (evaluateInputs tx u).2 := by
  intro refs total
  rcases evaluateInputs_known u tx rfl (rfl : _ = total) with
    ⟨balance, after, evaluated, same, fits, left⟩ | ⟨large, refused⟩
  · have notLarge : ¬ 2 ^ 63 - 1 < total := Nat.not_lt_of_le fits
    refine ⟨?_, fun large => absurd large notLarge, fun _ => ⟨_, after, evaluated, same, ?_, ?_, left⟩,
      fun _ => evaluateInputs_perm u tx⟩
    · rw [evaluated]
      exact ⟨nofun, fun large => absurd large notLarge⟩
    · exact InputEvaluation.recognized_ascends _
    · intro i v
      rw [InputEvaluation.mem_recognized_iff]
      exact u.getElem?_foundValues_eq_some_iff
  · refine ⟨?_, ?_, fun fits => absurd large (Nat.not_lt_of_le fits),
      fun _ => evaluateInputs_perm u tx⟩
    · rw [refused]
      exact ⟨fun _ => large, fun _ => rfl⟩
    · intro _
      rw [refused]

end TokenLedger
