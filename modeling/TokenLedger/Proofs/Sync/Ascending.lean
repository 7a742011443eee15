import TokenLedger.Sync.Exchange

/-!
The check of the order of blocks. It passes just if the heights go up and none lies below the first
height (`checkAscending_eq_ok_iff`), and otherwise names the first block that breaks this.
-/

namespace TokenLedger.Sync

/-- The heights of blocks go up from a height on, which may be the first of them. -/
structure Ascends (height : UInt64) (blocks : List Block) : Prop where
  above : ∀ b ∈ blocks, height ≤ b.height
  rising : blocks.Pairwise fun a b => a.height < b.height

theorem ascends_nil (height : UInt64) : Ascends height [] := ⟨nofun, .nil⟩

theorem ascends_cons_iff {height : UInt64} {b : Block} {rest : List Block} :
    Ascends height (b :: rest) ↔ height ≤ b.height ∧ (∀ later ∈ rest, b.height < later.height)
      ∧ rest.Pairwise fun a b => a.height < b.height := by
  constructor
  · rintro ⟨above, rising⟩
    exact ⟨above b List.mem_cons_self, List.pairwise_cons.1 rising⟩
  · rintro ⟨first, later, rising⟩
    refine ⟨?_, List.pairwise_cons.2 ⟨later, rising⟩⟩
    rw [List.forall_mem_cons]
    exact ⟨first, fun c member => UInt64.le_of_lt (UInt64.lt_of_le_of_lt first (later c member))⟩

theorem checkAbove_eq_ok_iff {height : UInt64} {blocks : List Block} :
    checkAbove height blocks = .ok ()
      ↔ (∀ b ∈ blocks, height < b.height) ∧ blocks.Pairwise fun a b => a.height < b.height := by
  induction blocks generalizing height with
  | nil => exact iff_of_true rfl ⟨nofun, .nil⟩
  | cons b rest ih =>
    rw [checkAbove]
    by_cases low : b.height ≤ height
    · rw [if_pos low]
      refine iff_of_false nofun ?_
      rintro ⟨above, -⟩
      exact UInt64.not_lt.2 low (above b List.mem_cons_self)
    · have high := UInt64.not_le.1 low
      rw [if_neg low, ih, List.forall_mem_cons, List.pairwise_cons]
      constructor
      · rintro ⟨later, rising⟩
        exact ⟨⟨high, fun c member => UInt64.lt_trans high (later c member)⟩, later, rising⟩
      · rintro ⟨-, later, rising⟩
        exact ⟨later, rising⟩

theorem checkAscending_eq_ok_iff {height : UInt64} {blocks : List Block} :
    checkAscending height blocks = .ok () ↔ Ascends height blocks := by
  cases blocks with
  | nil => exact iff_of_true rfl (ascends_nil height)
  | cons b rest =>
    rw [checkAscending, ascends_cons_iff]
    by_cases low : b.height < height
    · rw [if_pos low]
      refine iff_of_false nofun ?_
      rintro ⟨first, -⟩
      exact UInt64.not_lt.2 first low
    · rw [if_neg low, checkAbove_eq_ok_iff]
      exact (and_iff_right (UInt64.not_lt.1 low)).symm

theorem checkAbove_eq_error {height : UInt64} {blocks : List Block} {e : SyncError}
    (refused : checkAbove height blocks = .error e) :
    ∃ before b rest, blocks = before ++ b :: rest ∧ checkAbove height before = .ok ()
      ∧ checkAbove height (before ++ [b]) ≠ .ok () ∧ e = .outOfOrder b.height := by
  induction blocks generalizing height with
  | nil => cases refused
  | cons b rest ih =>
    rw [checkAbove] at refused
    by_cases low : b.height ≤ height
    · rw [if_pos low] at refused
      refine ⟨[], b, rest, rfl, rfl, ?_, (Except.error.inj refused).symm⟩
      rw [List.nil_append, checkAbove, if_pos low]
      nofun
    · rw [if_neg low] at refused
      obtain ⟨before, c, after, rfl, fine, bad, rfl⟩ := ih refused
      refine ⟨b :: before, c, after, rfl, ?_, ?_, rfl⟩
      · rw [checkAbove, if_neg low, fine]
      · rw [List.cons_append, checkAbove, if_neg low]
        exact bad

/-- The block that is named is the first that does not go up. -/
theorem checkAscending_eq_error {height : UInt64} {blocks : List Block} {e : SyncError}
    (refused : checkAscending height blocks = .error e) :
    ∃ before b rest, blocks = before ++ b :: rest ∧ Ascends height before
      ∧ ¬ Ascends height (before ++ [b]) ∧ e = .outOfOrder b.height := by
  simp only [← checkAscending_eq_ok_iff]
  cases blocks with
  | nil => cases refused
  | cons b rest =>
    rw [checkAscending] at refused
    by_cases low : b.height < height
    · rw [if_pos low] at refused
      refine ⟨[], b, rest, rfl, rfl, ?_, (Except.error.inj refused).symm⟩
      rw [List.nil_append, checkAscending, if_pos low]
      nofun
    · rw [if_neg low] at refused
      obtain ⟨before, c, after, rfl, fine, bad, rfl⟩ := checkAbove_eq_error refused
      refine ⟨b :: before, c, after, rfl, ?_, ?_, rfl⟩
      · rw [checkAscending, if_neg low, fine]
      · rw [List.cons_append, checkAscending, if_neg low]
        exact bad

end TokenLedger.Sync
