import TokenLedger.Proofs.Unspent
import TokenLedger.Store.Overlay

/-!
Stores that hold a set of entries. A store holds a set if it answers every look-up as the set does.
The stores that are used hold sets throughout (`LawfulStore`): a call to one that holds a set does
not fail, and leaves behind a store that holds the changed set.

What a computation does to a store is told by the list of the changes that it makes there
(`perform`), whatever the store is.
-/

namespace TokenLedger

/-- The store answers every look-up as the set does. -/
def Holds {σ : Type} [Store σ] (s : σ) (u : UnspentSet) : Prop :=
  ∀ r, Store.find? s r = .ok (u.find? r)

/-- A store holds one set. -/
theorem Holds.unique {σ : Type} [Store σ] {s : σ} {u v : UnspentSet} (first : Holds s u)
    (second : Holds s v) : u = v :=
  SortedMap.ext_find? fun r => Except.ok.inj ((first r).symm.trans (second r))

/-- Stores to which a call does what it does to the set that they hold. -/
class LawfulStore (σ : Type) [Store σ] : Prop where
  insert_holds {s : σ} {u : UnspentSet} (holds : Holds s u) (r : OutputRef) (entry : Utxo) :
    ∃ s', Store.insert s r entry = (.ok (), s') ∧ Holds s' (u.insert r entry)
  remove_holds {s : σ} {u : UnspentSet} (holds : Holds s u) (r : OutputRef) :
    ∃ s', Store.remove s r = (.ok (u.find? r), s') ∧ Holds s' (u.erase r)

/-- Makes changes in a store, by one call for each. -/
def perform {σ : Type} [Store σ] (s : σ) (changes : List Change) : Except StoreError Unit × σ :=
  applyEach Store.insert Store.remove s changes

section Perform

variable {σ : Type} [Store σ]

@[simp] theorem perform_nil (s : σ) : perform s [] = (.ok (), s) := rfl

theorem perform_insert_cons {s s' : σ} {r : OutputRef} {entry : Utxo}
    (inserted : Store.insert s r entry = (.ok (), s')) (rest : List Change) :
    perform s ((r, some entry) :: rest) = perform s' rest := by
  simp only [perform, applyEach, inserted]

theorem perform_remove_cons {s s' : σ} {r : OutputRef} {found? : Option Utxo}
    (removed : Store.remove s r = (.ok found?, s')) (rest : List Change) :
    perform s ((r, none) :: rest) = perform s' rest := by
  simp only [perform, applyEach, removed]

/-- Changes are made one after the other, so a list of them can be cut anywhere. -/
theorem perform_append {s s' : σ} {first : List Change} (made : perform s first = (.ok (), s'))
    (rest : List Change) : perform s (first ++ rest) = perform s' rest := by
  induction first generalizing s with
  | nil =>
    cases made
    rfl
  | cons change first ih =>
    obtain ⟨r, entry?⟩ := change
    cases entry? with
    | some entry =>
      cases inserted : Store.insert s r entry with
      | mk answer next =>
        cases answer with
        | ok =>
          rw [perform_insert_cons inserted] at made
          rw [List.cons_append, perform_insert_cons inserted]
          exact ih made
        | error e => simp [perform, applyEach, inserted] at made
    | none =>
      cases removed : Store.remove s r with
      | mk answer next =>
        cases answer with
        | ok found? =>
          rw [perform_remove_cons removed] at made
          rw [List.cons_append, perform_remove_cons removed]
          exact ih made
        | error e => simp [perform, applyEach, removed] at made

/-- A store that holds a set takes every list of changes and holds the changed set then. -/
theorem perform_holds [LawfulStore σ] {s : σ} {u : UnspentSet} (holds : Holds s u)
    (changes : List Change) :
    ∃ s', perform s changes = (.ok (), s') ∧ Holds s' (changes.foldl UnspentSet.apply u) := by
  induction changes generalizing s u with
  | nil => exact ⟨s, rfl, holds⟩
  | cons change rest ih =>
    obtain ⟨r, entry?⟩ := change
    cases entry? with
    | some entry =>
      obtain ⟨next, inserted, holdsNext⟩ := LawfulStore.insert_holds holds r entry
      rw [perform_insert_cons inserted]
      exact ih holdsNext
    | none =>
      obtain ⟨next, removed, holdsNext⟩ := LawfulStore.remove_holds holds r
      rw [perform_remove_cons removed]
      exact ih holdsNext

/-- What a store holds after changes that were made in it. -/
theorem holds_of_perform [LawfulStore σ] {s s' : σ} {u : UnspentSet} (holds : Holds s u)
    {changes : List Change} (made : perform s changes = (.ok (), s')) :
    Holds s' (changes.foldl UnspentSet.apply u) := by
  obtain ⟨after, madeAlso, holdsAfter⟩ := perform_holds holds changes
  rw [made] at madeAlso
  cases madeAlso
  exact holdsAfter

end Perform

/-! ## Sets in memory -/

/-- A set holds itself and nothing else. -/
theorem holds_unspentSet_iff {u v : UnspentSet} : Holds u v ↔ u = v := by
  constructor
  · intro holds
    exact SortedMap.ext_find? fun r => Except.ok.inj (holds r)
  · rintro rfl r
    rfl

instance : LawfulStore UnspentSet where
  insert_holds := by
    intro s u holds r entry
    obtain rfl := holds_unspentSet_iff.1 holds
    exact ⟨_, rfl, fun _ => rfl⟩
  remove_holds := by
    intro s u holds r
    obtain rfl := holds_unspentSet_iff.1 holds
    exact ⟨_, rfl, fun _ => rfl⟩

/-! ## Overlays -/

namespace Overlay

variable {σ : Type} [Store σ]

/-- An overlay without changes holds the set beneath. -/
theorem holds_fresh (u : UnspentSet) : Holds ({ base := u } : Overlay UnspentSet) u := fun _ => rfl

theorem find?_put (o : Overlay σ) (r r' : OutputRef) (entry : Utxo) :
    Store.find? (o.put r entry) r' = if r' = r then .ok (some entry) else Store.find? o r' := by
  by_cases same : r' = r
  · subst same
    simp [Store.find?, find?, put]
  · simp [Store.find?, find?, put, same]

theorem find?_drop (o : Overlay σ) (r r' : OutputRef) :
    Store.find? (o.drop r) r' = if r' = r then .ok none else Store.find? o r' := by
  by_cases same : r' = r
  · subst same
    simp [Store.find?, find?, drop]
  · simp [Store.find?, find?, drop, same]

instance : LawfulStore (Overlay σ) where
  insert_holds := by
    intro o u holds r entry
    refine ⟨o.put r entry, rfl, fun r' => ?_⟩
    rw [find?_put, SortedMap.find?_insert, holds r']
    split <;> rfl
  remove_holds := by
    intro o u holds r
    have found : o.find? r = .ok (u.find? r) := holds r
    cases entry : u.find? r with
    | none =>
      rw [entry] at found
      refine ⟨o, by simp [Store.remove, found], fun r' => ?_⟩
      rw [SortedMap.find?_erase, holds r']
      split
      · rename_i same
        rw [same, entry]
      · rfl
    | some e =>
      rw [entry] at found
      refine ⟨o.drop r, by simp [Store.remove, found], fun r' => ?_⟩
      rw [find?_drop, SortedMap.find?_erase, holds r']
      split <;> rfl

omit [Store σ] in
/-- No reference is changed twice. -/
theorem nodup_map_fst_changes (o : Overlay σ) : (o.changes.map Prod.fst).Nodup :=
  o.writes.nodup_keys

/-- An overlay holds the set beneath with the changes made in it. -/
theorem holds_changes {o : Overlay σ} {u : UnspentSet} (below : Holds o.base u) :
    Holds o (o.changes.foldl UnspentSet.apply u) := by
  intro r
  cases written : o.writes.find? r with
  | some entry? =>
    have member : (r, entry?) ∈ o.changes := (SortedMap.find?_eq_some_iff _ _ _).1 written
    rw [UnspentSet.find?_foldl_apply_of_mem (nodup_map_fst_changes o) member]
    simp [Store.find?, find?, written]
  | none =>
    have absent : r ∉ o.changes.map Prod.fst := by
      intro key
      obtain ⟨change, member, rfl⟩ := List.mem_map.1 key
      rw [(SortedMap.find?_eq_some_iff _ _ _).2 member] at written
      cases written
    rw [UnspentSet.find?_foldl_apply_of_notMem absent, ← below r]
    simp [Store.find?, find?, written]

/-- Letting the changes through makes the set beneath into the one that the overlay holds. -/
theorem foldl_changes {o : Overlay UnspentSet} {u : UnspentSet} (holds : Holds o u) :
    o.changes.foldl UnspentSet.apply o.base = u :=
  (holds_changes (holds_unspentSet_iff.2 rfl)).unique holds

end Overlay

end TokenLedger
