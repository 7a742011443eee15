import TokenLedger.Chain
import TokenLedger.Proofs.Store.Alike

/-!
What deriving a block has to do with the store beneath. The changes are held back above it, so it
stays as it is, at every point where deriving may stop; and all that is seen of it is what it
answers to look-ups (`deriveBlock_congr`).
-/

namespace TokenLedger

section

variable {σ τ : Type} [Store σ] [Store τ]

/-- Overlays on two stores that hold the same changes back. -/
def Overlay.Parallel (s : σ) (t : τ) (o : Overlay σ) (o' : Overlay τ) : Prop :=
  o.base = s ∧ o'.base = t ∧ o.writes = o'.writes

/-- On stores that answer look-ups alike, such overlays cannot be told apart, and no call touches the
stores. -/
theorem Overlay.alike {s : σ} {t : τ} (looks : ∀ r, Store.find? s r = Store.find? t r) :
    Alike (Overlay.Parallel s t) := by
  have found {o : Overlay σ} {o' : Overlay τ} (related : Overlay.Parallel s t o o')
      (r : OutputRef) : o.find? r = o'.find? r := by
    obtain ⟨base, base', writes⟩ := related
    rw [Overlay.find?, Overlay.find?, writes, base, base', looks r]
  refine ⟨found, ?_, ?_⟩
  · rintro o o' ⟨base, base', writes⟩ r entry
    exact ⟨_, o.put r entry, o'.put r entry, rfl, rfl, base, base', by simp only [put, writes]⟩
  · intro o o' related r
    have ⟨base, base', writes⟩ := related
    simp only [Store.remove, found related r]
    cases o'.find? r with
    | error e => exact ⟨_, o, o', rfl, rfl, related⟩
    | ok entry? =>
      cases entry? with
      | none => exact ⟨_, o, o', rfl, rfl, related⟩
      | some entry =>
        exact ⟨_, o.drop r, o'.drop r, rfl, rfl, base, base', by simp only [drop, writes]⟩

/-- Stores that answer look-ups alike derive the same block with the same changes, or refuse it for
the same reason, and stay as they are. -/
theorem deriveBlock_congr {s : σ} {t : τ} (looks : ∀ r, Store.find? s r = Store.find? t r)
    (g : Genesis) (raw : RawBlock) :
    ∃ answer, deriveBlock g raw s = (answer, s) ∧ deriveBlock g raw t = (answer, t) := by
  have related : Overlay.Parallel s t { base := s } { base := t } := ⟨rfl, rfl, rfl⟩
  obtain ⟨answer, o, o', first, second, rfl, rfl, writes⟩ :=
    (Overlay.alike looks).deriveTxs related g raw.height raw.txs
  simp only [deriveBlock, first, second]
  cases answer with
  | error e => exact ⟨_, rfl, rfl⟩
  | ok txs => exact ⟨_, rfl, by simp only [Overlay.changes, writes]⟩

omit [Store τ] in
/-- Deriving a block leaves the store as it is, whether or not it comes to its end. -/
theorem deriveBlock_store (g : Genesis) (raw : RawBlock) (s : σ) :
    (deriveBlock g raw s).2 = s := by
  obtain ⟨answer, derived, _⟩ := deriveBlock_congr (fun r => rfl : ∀ r, Store.find? s r = _) g raw
  rw [derived]

end

end TokenLedger
