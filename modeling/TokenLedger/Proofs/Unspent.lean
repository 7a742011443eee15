import Mathlib.Algebra.GroupWithZero.Nat
import TokenLedger.Store

/-!
Sets of unspent outputs under lists of changes: what a look-up finds afterwards, and what becomes of
the token value of all entries together. Ending entries takes their value off the total. New entries
add theirs at most; they add all of it if none of them takes the place of another
(`totalValue_creations_le`, `totalValue_creations`).
-/

namespace TokenLedger

/-- The ends of entries. -/
def endings (refs : List OutputRef) : List Change := refs.map fun r => (r, none)

/-- New entries. -/
def creations (entries : List (OutputRef × Utxo)) : List Change :=
  entries.map fun e => (e.1, some e.2)

@[simp] theorem endings_nil : endings [] = [] := rfl

@[simp] theorem endings_cons (r : OutputRef) (rest : List OutputRef) :
    endings (r :: rest) = (r, none) :: endings rest := rfl

@[simp] theorem creations_nil : creations [] = [] := rfl

@[simp] theorem creations_cons (e : OutputRef × Utxo) (rest : List (OutputRef × Utxo)) :
    creations (e :: rest) = (e.1, some e.2) :: creations rest := rfl

@[simp] theorem map_fst_creations (entries : List (OutputRef × Utxo)) :
    (creations entries).map Prod.fst = entries.map Prod.fst := by
  simp [creations, Function.comp_def]

namespace UnspentSet

/-! ## Look-ups -/

theorem find?_apply (u : UnspentSet) (change : Change) (r : OutputRef) :
    (apply u change).find? r = if r = change.1 then change.2 else u.find? r := by
  obtain ⟨key, entry?⟩ := change
  cases entry? with
  | some entry => exact SortedMap.find?_insert u key r entry
  | none => exact SortedMap.find?_erase u key r

theorem find?_foldl_apply_of_notMem {u : UnspentSet} {changes : List Change} {r : OutputRef}
    (absent : r ∉ changes.map Prod.fst) : (changes.foldl apply u).find? r = u.find? r := by
  induction changes generalizing u with
  | nil => rfl
  | cons change rest ih =>
    simp only [List.map_cons, List.mem_cons, not_or] at absent
    rw [List.foldl_cons, ih absent.2, find?_apply, if_neg absent.1]

theorem find?_foldl_apply_of_mem {u : UnspentSet} {changes : List Change}
    (distinct : (changes.map Prod.fst).Nodup) {change : Change} (member : change ∈ changes) :
    (changes.foldl apply u).find? change.1 = change.2 := by
  induction changes generalizing u with
  | nil => cases member
  | cons head rest ih =>
    obtain ⟨apart, distinct⟩ := List.nodup_cons.1 distinct
    rcases List.mem_cons.1 member with rfl | member
    · rw [List.foldl_cons, find?_foldl_apply_of_notMem apart, find?_apply, if_pos rfl]
    · exact ih distinct member

theorem find?_foldl_endings (u : UnspentSet) (refs : List OutputRef) (r : OutputRef) :
    ((endings refs).foldl apply u).find? r
      = if r ∈ refs then none else u.find? r := by
  induction refs generalizing u with
  | nil => simp
  | cons head rest ih =>
    rw [endings_cons, List.foldl_cons, ih, find?_apply]
    by_cases listed : r ∈ rest
    · simp [listed]
    · by_cases same : r = head
      · simp [same]
      · simp [listed, same]

/-- What is found after new entries was there before or is one of them. -/
theorem mem_of_find?_foldl_creations {u : UnspentSet} {entries : List (OutputRef × Utxo)}
    {r : OutputRef} {entry : Utxo}
    (found : ((creations entries).foldl apply u).find? r = some entry) :
    u.find? r = some entry ∨ (r, entry) ∈ entries := by
  induction entries generalizing u with
  | nil => exact .inl found
  | cons e rest ih =>
    rcases ih found with before | later
    · rw [find?_apply] at before
      split at before
      · rename_i same
        cases before
        exact .inr (List.mem_cons.2 (.inl (Prod.ext same rfl)))
      · exact .inl before
    · exact .inr (List.mem_cons_of_mem _ later)

/-! ## The total -/

/-- The token value under a reference; there is none where no entry is. -/
def valueUnder (u : UnspentSet) (r : OutputRef) : Nat := (u.find? r).elim 0 fun e => e.value.toNat

theorem valueUnder_of_find? {u : UnspentSet} {r : OutputRef} {entry : Utxo}
    (found : u.find? r = some entry) : u.valueUnder r = entry.value.toNat := by
  simp [valueUnder, found]

theorem valueUnder_of_find?_none {u : UnspentSet} {r : OutputRef} (absent : u.find? r = none) :
    u.valueUnder r = 0 := by
  simp [valueUnder, absent]

theorem valueUnder_erase_of_ne (u : UnspentSet) {r r' : OutputRef} (apart : r' ≠ r) :
    valueUnder (u.erase r) r' = u.valueUnder r' := by
  simp [valueUnder, apart]

private theorem total_withEntry (r : OutputRef) (entry : Utxo) (entries : List (OutputRef × Utxo)) :
    Amount.total ((SortedMap.withEntry r entry entries).map fun e => e.2.value)
        + (SortedMap.lookup r entries).elim 0 (fun e => e.value.toNat)
      = Amount.total (entries.map fun e => e.2.value) + entry.value.toNat := by
  induction entries with
  | nil => simp [SortedMap.withEntry, SortedMap.lookup]
  | cons head rest ih =>
    obtain ⟨key, old⟩ := head
    simp only [SortedMap.withEntry, SortedMap.lookup]
    cases compare r key with
    | lt =>
      simp only [List.map_cons, Amount.total_cons, Option.elim_none]
      omega
    | eq =>
      simp only [List.map_cons, Amount.total_cons, Option.elim_some]
      omega
    | gt =>
      simp only [List.map_cons, Amount.total_cons]
      omega

private theorem total_withoutKey (r : OutputRef) (entries : List (OutputRef × Utxo)) :
    Amount.total ((SortedMap.withoutKey r entries).map fun e => e.2.value)
        + (SortedMap.lookup r entries).elim 0 (fun e => e.value.toNat)
      = Amount.total (entries.map fun e => e.2.value) := by
  induction entries with
  | nil => simp [SortedMap.withoutKey, SortedMap.lookup]
  | cons head rest ih =>
    obtain ⟨key, old⟩ := head
    simp only [SortedMap.withoutKey, SortedMap.lookup]
    cases compare r key with
    | lt => simp
    | eq =>
      simp only [List.map_cons, Amount.total_cons, Option.elim_some]
      omega
    | gt =>
      simp only [List.map_cons, Amount.total_cons]
      omega

/-- A new entry adds its value, less that of the entry whose place it takes. -/
theorem totalValue_insert (u : UnspentSet) (r : OutputRef) (entry : Utxo) :
    totalValue (u.insert r entry) + u.valueUnder r = u.totalValue + entry.value.toNat :=
  total_withEntry r entry u.toList

/-- The end of an entry takes its value off. -/
theorem totalValue_erase (u : UnspentSet) (r : OutputRef) :
    totalValue (u.erase r) + u.valueUnder r = u.totalValue :=
  total_withoutKey r u.toList

/-- The ends of different entries take their values off. -/
theorem totalValue_endings {u : UnspentSet} {refs : List OutputRef} (distinct : refs.Nodup) :
    totalValue ((endings refs).foldl apply u) + (refs.map u.valueUnder).sum = u.totalValue := by
  induction refs generalizing u with
  | nil => rfl
  | cons r rest ih =>
    obtain ⟨apart, distinct⟩ := List.nodup_cons.1 distinct
    have others : rest.map (valueUnder (u.erase r)) = rest.map u.valueUnder :=
      List.map_congr_left fun r' member => valueUnder_erase_of_ne u fun same => apart (same ▸ member)
    have later := ih (u := u.erase r) distinct
    have first := totalValue_erase u r
    rw [others] at later
    simp only [endings_cons, List.foldl_cons, apply, List.map_cons, List.sum_cons] at later ⊢
    omega

/-- New entries add their values at most. -/
theorem totalValue_creations_le (u : UnspentSet) (entries : List (OutputRef × Utxo)) :
    totalValue ((creations entries).foldl apply u)
      ≤ u.totalValue + Amount.total (entries.map fun e => e.2.value) := by
  induction entries generalizing u with
  | nil => exact Nat.le_refl _
  | cons e rest ih =>
    have later := ih (u.insert e.1 e.2)
    have first := totalValue_insert u e.1 e.2
    simp only [creations_cons, List.foldl_cons, apply, List.map_cons, Amount.total_cons] at later ⊢
    omega

/-- New entries under different references, none of which had an entry, add all of their values. -/
theorem totalValue_creations {u : UnspentSet} {entries : List (OutputRef × Utxo)}
    (distinct : (entries.map Prod.fst).Nodup) (vacant : ∀ e ∈ entries, u.find? e.1 = none) :
    totalValue ((creations entries).foldl apply u)
      = u.totalValue + Amount.total (entries.map fun e => e.2.value) := by
  induction entries generalizing u with
  | nil => rfl
  | cons e rest ih =>
    obtain ⟨apart, distinct⟩ := List.nodup_cons.1 distinct
    have stillVacant : ∀ e' ∈ rest, (u.insert e.1 e.2).find? e'.1 = none := by
      intro e' member
      have other : e'.1 ≠ e.1 := fun same => apart (same ▸ List.mem_map_of_mem member)
      rw [SortedMap.find?_insert, if_neg other]
      exact vacant e' (List.mem_cons_of_mem _ member)
    have later := ih distinct stillVacant
    have first := totalValue_insert u e.1 e.2
    rw [valueUnder_of_find?_none (vacant e List.mem_cons_self)] at first
    simp only [creations_cons, List.foldl_cons, apply, List.map_cons, Amount.total_cons] at later ⊢
    omega

end UnspentSet

end TokenLedger
