import TokenLedger.Proofs.Store.Database
import TokenLedger.Proofs.Store.HeldBack

/-!
A database is a set that lasts. Whatever calls it gets, whatever changes are made in it at once,
and wherever it is closed and opened again in between, it answers as a set in memory does and is as
large (`answers_as_set`). That needs no more than that the texts of references tell them apart, and
they do, also where an id is empty or has a colon in it. It is only for reading the set back from
the texts that its references have to be well-formed.
-/

namespace TokenLedger

/-- What a store goes through. -/
inductive StoreStep where
  | call (made : StoreCall)
  /-- Changes are made at once. -/
  | batch (changes : List Change)
  /-- It is closed and opened again. -/
  | reopen

namespace StoreStep

section

variable {σ : Type} [Store σ]

/-- Goes through a step. There is nothing to a store beside what it keeps, so it is opened as it was
closed. -/
def take (s : σ) : StoreStep → StoreAnswer × σ
  | call made => made.make s
  | batch changes =>
    let (ended, s) := Store.applyBatch s changes
    (.done ended, s)
  | reopen => (.done (.ok ()), s)

/-- Goes through steps one after the other. -/
def takeAll (s : σ) : List StoreStep → List StoreAnswer × σ
  | [] => ([], s)
  | step :: rest =>
    let (answer, s) := step.take s
    let (answers, s) := takeAll s rest
    (answer :: answers, s)

theorem takeAll_cons (s : σ) (step : StoreStep) (rest : List StoreStep) :
    takeAll s (step :: rest)
      = ((step.take s).1 :: (takeAll (step.take s).2 rest).1, (takeAll (step.take s).2 rest).2) :=
  rfl

end

open Database

variable {db : Database} {u : UnspentSet}

/-- Where the entries of a set are kept, a call is answered as by the set, and afterwards the entries
of the set are kept that the call leads to. -/
theorem make_keeps (keeps : KeepsEntries db.utxos u) (made : StoreCall) :
    (made.make db).1 = (made.make u).1 ∧ KeepsEntries (made.make db).2.utxos (made.make u).2 := by
  cases made with
  | find r => exact ⟨congrArg StoreAnswer.found (keeps.holds r), keeps⟩
  | insert r entry => exact ⟨rfl, keeps.applyChange (r, some entry)⟩
  | remove r =>
    -- What is taken out is what a look-up would have found.
    exact ⟨congrArg StoreAnswer.found (keeps.holds r), keeps.applyChange (r, none)⟩

theorem take_keeps (keeps : KeepsEntries db.utxos u) (step : StoreStep) :
    (step.take db).1 = (step.take u).1 ∧ KeepsEntries (step.take db).2.utxos (step.take u).2 := by
  cases step with
  | call made => exact make_keeps keeps made
  | batch changes =>
    simp only [take, UnspentSet.applyBatch_eq]
    exact ⟨rfl, keeps.foldl_applyChange changes⟩
  | reopen => exact ⟨rfl, keeps⟩

theorem takeAll_keeps (keeps : KeepsEntries db.utxos u) (steps : List StoreStep) :
    (takeAll db steps).1 = (takeAll u steps).1
      ∧ KeepsEntries (takeAll db steps).2.utxos (takeAll u steps).2 := by
  induction steps generalizing db u with
  | nil => exact ⟨rfl, keeps⟩
  | cons step rest ih =>
    obtain ⟨answer, next⟩ := take_keeps keeps step
    obtain ⟨answers, last⟩ := ih next
    rw [takeAll_cons, takeAll_cons, answer, answers]
    exact ⟨rfl, last⟩

end StoreStep

open StoreStep

/-- Whatever a database goes through from the beginning, it answers as a set in memory does that goes
through the same, and has as many entries in the end, under any references whatever. The set can be
read back from it just if all references in it are well-formed; otherwise one of them is found to be
none. -/
theorem Database.answers_as_set (steps : List StoreStep) :
    let kept := takeAll Database.empty steps
    let inMemory := takeAll (SortedMap.empty : UnspentSet) steps
    let formed := ∀ e ∈ inMemory.2.toList, WellFormedId e.1.txId
    kept.1 = inMemory.1 ∧ kept.2.size = inMemory.2.size
      ∧ (formed → kept.2.snapshot = .ok inMemory.2)
      ∧ (¬ formed → ∃ e, kept.2.snapshot = .error (.corrupt (.notReference e))) := by
  intro kept inMemory formed
  have nothing : KeepsEntries Database.empty.utxos SortedMap.empty := .empty
  obtain ⟨answers, keeps⟩ := takeAll_keeps nothing steps
  refine ⟨answers, keeps.size_eq, ?_, ?_⟩
  · intro formed
    refine keeps.snapshot fun r entry found => ?_
    exact formed (r, entry) ((SortedMap.find?_eq_some_iff _ _ _).1 found)
  · intro malformed
    simp only [formed, not_forall] at malformed
    obtain ⟨e, listed, malformed⟩ := malformed
    exact keeps.snapshot_error ((SortedMap.find?_eq_some_iff _ _ _).2 listed) malformed

/-- One reference has no id, and another has a colon in its id; with digits behind that it is close
to a third. They are told apart all the same, but the set is not read back before the first two are
gone. -/
theorem Database.answers_as_set_with_malformed_ids :
    let entry (value : UInt64) : Utxo := ⟨value, 10, .token⟩
    let before : List StoreStep :=
      [.call (.insert ⟨"", 0⟩ (entry 1)), .call (.insert ⟨"a:1", 2⟩ (entry 2)),
        .batch [(⟨"a", 12⟩, some (entry 3)), (⟨"a", 12⟩, none), (⟨"a", 12⟩, some (entry 4))],
        .reopen]
    let after : List StoreStep :=
      before ++ [.call (.remove ⟨"", 0⟩), .call (.remove ⟨"a:1", 2⟩)]
    (∃ e, (takeAll Database.empty before).2.snapshot = .error (.corrupt (.notReference e)))
      ∧ (takeAll Database.empty before).2.size = 3
      ∧ (takeAll Database.empty after).2.snapshot
        = .ok (SortedMap.empty.insert ⟨"a", 12⟩ (entry 4)) := by
  intro entry before after
  obtain ⟨-, size, -, unread⟩ := answers_as_set before
  obtain ⟨-, -, read, -⟩ := answers_as_set after
  exact ⟨unread (by decide +kernel), size.trans (by decide +kernel),
    (read (by decide +kernel)).trans (by decide +kernel)⟩

end TokenLedger
