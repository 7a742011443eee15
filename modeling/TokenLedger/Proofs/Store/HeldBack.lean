import Mathlib.Data.List.Dedup
import TokenLedger.Proofs.Store.Holding

/-!
Working on an overlay is working on the store itself. Any calls get the same answers from both, the
store beneath is not touched meanwhile, and letting the changes through leaves it as the calls
themselves would have (`held_back_as_made_at_once`). This is so above a set, and above an overlay
of a set as well.
-/

namespace TokenLedger

/-- A call to a store. -/
inductive StoreCall where
  | find (r : OutputRef)
  | insert (r : OutputRef) (entry : Utxo)
  | remove (r : OutputRef)
deriving DecidableEq, Repr

/-- The answer to a call: what was found, or only whether it was done. -/
inductive StoreAnswer where
  | found (found? : Except StoreError (Option Utxo))
  | done (ended : Except StoreError Unit)

namespace StoreCall

/-- Makes a call. -/
def make {σ : Type} [Store σ] (s : σ) : StoreCall → StoreAnswer × σ
  | find r => (.found (Store.find? s r), s)
  | insert r entry =>
    let (ended, s) := Store.insert s r entry
    (.done ended, s)
  | remove r =>
    let (found?, s) := Store.remove s r
    (.found found?, s)

/-- Makes calls one after the other. -/
def makeAll {σ : Type} [Store σ] (s : σ) : List StoreCall → List StoreAnswer × σ
  | [] => ([], s)
  | call :: rest =>
    let (answer, s) := call.make s
    let (answers, s) := makeAll s rest
    (answer :: answers, s)

/-- The reference whose entry a call changes: one that is inserted, or one that is removed and was
there. -/
def changed? : StoreCall → StoreAnswer → Option OutputRef
  | insert r _, _ => some r
  | remove r, .found (.ok (some _)) => some r
  | _, _ => none

/-- The references whose entries are changed by calls that were answered so, in order. -/
def changedRefs (calls : List StoreCall) (answers : List StoreAnswer) : List OutputRef :=
  (calls.zip answers).filterMap fun e => e.1.changed? e.2

section

variable {σ : Type} [Store σ]

theorem makeAll_cons (s : σ) (call : StoreCall) (rest : List StoreCall) :
    makeAll s (call :: rest)
      = ((call.make s).1 :: (makeAll (call.make s).2 rest).1, (makeAll (call.make s).2 rest).2) :=
  rfl

theorem mem_changedRefs_cons {call : StoreCall} {answer : StoreAnswer} {rest : List StoreCall}
    {answers : List StoreAnswer} {r : OutputRef} :
    r ∈ changedRefs (call :: rest) (answer :: answers)
      ↔ call.changed? answer = some r ∨ r ∈ changedRefs rest answers := by
  simp [changedRefs]

/-! ## Stores that hold a set -/

variable [LawfulStore σ] {s : σ} {u : UnspentSet}

/-- A store that holds a set answers as the set does. -/
theorem make_holds (holds : Holds s u) (call : StoreCall) :
    ∃ s', call.make s = ((call.make u).1, s') ∧ Holds s' (call.make u).2 := by
  cases call with
  | find r =>
    refine ⟨s, ?_, holds⟩
    rw [make, holds r]
    rfl
  | insert r entry =>
    obtain ⟨s', inserted, later⟩ := LawfulStore.insert_holds holds r entry
    refine ⟨s', ?_, later⟩
    rw [make, inserted]
    rfl
  | remove r =>
    obtain ⟨s', removed, later⟩ := LawfulStore.remove_holds holds r
    refine ⟨s', ?_, later⟩
    rw [make, removed]
    rfl

theorem makeAll_holds (holds : Holds s u) (calls : List StoreCall) :
    ∃ s', makeAll s calls = ((makeAll u calls).1, s') ∧ Holds s' (makeAll u calls).2 := by
  induction calls generalizing s u with
  | nil => exact ⟨s, rfl, holds⟩
  | cons call rest ih =>
    obtain ⟨next, made, holdsNext⟩ := make_holds holds call
    obtain ⟨after, madeAll, holdsAfter⟩ := ih holdsNext
    refine ⟨after, ?_, holdsAfter⟩
    rw [makeAll_cons, made, makeAll_cons]
    simp only [madeAll]

end

end StoreCall

open StoreCall

namespace Overlay

variable {σ : Type} [Store σ] {o : Overlay σ}

/-! ## What is held back -/

theorem base_make (o : Overlay σ) (call : StoreCall) : (call.make o).2.base = o.base := by
  cases call with
  | find r => rfl
  | insert r entry => rfl
  | remove r =>
    simp only [make, Store.remove]
    cases o.find? r with
    | error e => rfl
    | ok found? => cases found? <;> rfl

/-- Calls to an overlay never reach the store beneath. -/
theorem base_makeAll (o : Overlay σ) (calls : List StoreCall) :
    (makeAll o calls).2.base = o.base := by
  induction calls generalizing o with
  | nil => rfl
  | cons call rest ih =>
    rw [makeAll_cons]
    exact (ih _).trans (base_make o call)

theorem isSome_writes_make (o : Overlay σ) (call : StoreCall) (r : OutputRef) :
    ((call.make o).2.writes.find? r).isSome
      ↔ call.changed? (call.make o).1 = some r ∨ (o.writes.find? r).isSome := by
  cases call with
  | find key => simp [make, changed?]
  | insert key entry =>
    by_cases same : r = key
    · simp [make, changed?, Store.insert, put, same]
    · simp [make, changed?, Store.insert, put, same, Ne.symm same]
  | remove key =>
    simp only [make, Store.remove]
    cases o.find? key with
    | error e => simp [changed?]
    | ok found? =>
      cases found? with
      | none => simp [changed?]
      | some entry =>
        by_cases same : r = key
        · simp [changed?, drop, same]
        · simp [changed?, drop, same, Ne.symm same]

/-- A reference has a change held back if it had one before or its entry is changed. -/
theorem isSome_writes_makeAll (o : Overlay σ) (calls : List StoreCall) (r : OutputRef) :
    ((makeAll o calls).2.writes.find? r).isSome
      ↔ r ∈ changedRefs calls (makeAll o calls).1 ∨ (o.writes.find? r).isSome := by
  induction calls generalizing o with
  | nil => simp [makeAll, changedRefs]
  | cons call rest ih =>
    simp only [makeAll_cons]
    rw [ih, isSome_writes_make, mem_changedRefs_cons]
    tauto

omit [Store σ] in
/-- An overlay holds back one change for each of the references that have one. -/
theorem pending_eq_length_dedup {refs : List OutputRef}
    (exactly : ∀ r, (o.writes.find? r).isSome ↔ r ∈ refs) : o.pending = refs.dedup.length := by
  have same : (o.changes.map Prod.fst).Perm refs.dedup := by
    rw [List.perm_ext_iff_of_nodup (nodup_map_fst_changes o) refs.nodup_dedup]
    intro r
    rw [List.mem_dedup, ← exactly r, Option.isSome_iff_exists, List.mem_map]
    constructor
    · rintro ⟨⟨key, found?⟩, member, rfl⟩
      exact ⟨found?, (SortedMap.find?_eq_some_iff _ _ _).2 member⟩
    · rintro ⟨found?, written⟩
      exact ⟨(r, found?), (SortedMap.find?_eq_some_iff _ _ _).1 written, rfl⟩
  rw [← same.length_eq, List.length_map]
  rfl

/-! ## Letting it through -/

variable [LawfulStore σ] {s : σ} {u : UnspentSet}

/-- Calls to a fresh overlay above a store that holds a set: they are answered as by the store
itself, and making the changes that are held back leads to a store that holds the same set. -/
theorem makeAll_fresh (holds : Holds s u) (calls : List StoreCall) :
    let direct := makeAll s calls
    let held := makeAll ({ base := s } : Overlay σ) calls
    held.1 = direct.1 ∧ held.2.base = s
      ∧ held.2.pending = (changedRefs calls direct.1).dedup.length
      ∧ ∃ after v, perform s held.2.changes = (.ok (), after) ∧ Holds after v
        ∧ Holds direct.2 v := by
  intro direct held
  have fresh : Holds ({ base := s } : Overlay σ) u := holds_changes holds
  obtain ⟨s', madeDirectly, holdsDirectly⟩ := makeAll_holds holds calls
  obtain ⟨o, madeAbove, holdsAbove⟩ := makeAll_holds fresh calls
  have answers : held.1 = direct.1 := by simp only [held, direct, madeAbove, madeDirectly]
  have beneath : held.2.base = s := base_makeAll _ calls
  obtain ⟨after, performed, holdsAfter⟩ := perform_holds holds held.2.changes
  have same : held.2.changes.foldl UnspentSet.apply u = (makeAll u calls).2 := by
    refine (holds_changes (beneath.symm ▸ holds)).unique ?_
    simp only [held, madeAbove]
    exact holdsAbove
  rw [same] at holdsAfter
  refine ⟨answers, beneath, ?_, after, _, performed, holdsAfter, ?_⟩
  · refine pending_eq_length_dedup fun r => ?_
    rw [← answers, isSome_writes_makeAll]
    exact or_iff_left nofun
  · simp only [direct, madeDirectly]
    exact holdsDirectly

omit [LawfulStore σ] in
theorem commit_eq {after : σ} (applied : Store.applyBatch o.base o.changes = (.ok (), after)) :
    o.commit = (.ok o.pending, after) := by
  rw [commit, applied]

/-- Every overlay of a set holds a set itself: the one beneath with its changes made. -/
theorem exists_holds (o : Overlay UnspentSet) : ∃ u, Holds o u :=
  ⟨_, holds_changes (holds_unspentSet_iff.2 rfl)⟩

end Overlay

/-- Calls to a fresh overlay are answered one by one as by what is beneath, which they leave alone.
Letting the changes through, by themselves or together with a block, leaves beneath what the calls
would have left there when made directly, and is answered with the number of different references
whose entries they changed. Above an overlay, what is left beneath finds the same under every
reference. -/
theorem held_back_as_made_at_once (calls : List StoreCall) (b : Block) :
    (∀ u : UnspentSet,
      let direct := makeAll u calls
      let held := makeAll ({ base := u } : Overlay UnspentSet) calls
      held.1 = direct.1 ∧ held.2.base = u
        ∧ Store.commitBlock u held.2.changes b = (.ok (), direct.2)
        ∧ held.2.commit = (.ok (changedRefs calls direct.1).dedup.length, direct.2))
    ∧ ∀ o : Overlay UnspentSet,
      let direct := makeAll o calls
      let held := makeAll ({ base := o } : Overlay (Overlay UnspentSet)) calls
      held.1 = direct.1 ∧ held.2.base = o
        ∧ ∃ after, Store.commitBlock o held.2.changes b = (.ok (), after)
          ∧ held.2.commit = (.ok (changedRefs calls direct.1).dedup.length, after)
          ∧ ∀ r, Store.find? after r = Store.find? direct.2 r := by
  constructor
  · intro u direct held
    have itself : Holds u u := holds_unspentSet_iff.2 rfl
    obtain ⟨answers, beneath, pending, after, v, performed, holdsAfter, holdsDirect⟩ :=
      Overlay.makeAll_fresh itself calls
    have same : after = direct.2 :=
      (holds_unspentSet_iff.1 holdsAfter).trans (holds_unspentSet_iff.1 holdsDirect).symm
    rw [same] at performed
    refine ⟨answers, beneath, performed, ?_⟩
    rw [← pending]
    exact Overlay.commit_eq (beneath.symm ▸ performed)
  · intro o direct held
    obtain ⟨u, holds⟩ := o.exists_holds
    obtain ⟨answers, beneath, pending, after, v, performed, holdsAfter, holdsDirect⟩ :=
      Overlay.makeAll_fresh holds calls
    refine ⟨answers, beneath, after, performed, ?_, fun r => ?_⟩
    · rw [← pending]
      exact Overlay.commit_eq (beneath.symm ▸ performed)
    · rw [holdsAfter r, holdsDirect r]

end TokenLedger
