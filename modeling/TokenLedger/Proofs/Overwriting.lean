import TokenLedger.Proofs.Chain.Growth

/-!
New entries in the place of unspent ones. An insertion under a reference that has an entry destroys
what was unspent there. It is told here exactly when a block that a chain takes in does so
(`nothingOverwritten_iff`). Different ids within one block keep its records apart from each other,
but nothing keeps them apart from the blocks before: a transaction that uses an id again makes its
entries under references that may still be unspent (`unspent_overwritten_by_later_block`).
-/

namespace TokenLedger

/-- No change, as they are made one after the other, puts an entry where there is one. -/
def NothingOverwritten : UnspentSet → List Change → Prop
  | _, [] => True
  | u, (r, some entry) :: rest => u.find? r = none ∧ NothingOverwritten (u.insert r entry) rest
  | u, (r, none) :: rest => NothingOverwritten (u.erase r) rest

instance decidableNothingOverwritten :
    (u : UnspentSet) → (changes : List Change) → Decidable (NothingOverwritten u changes)
  | _, [] => isTrue trivial
  | u, (r, some entry) :: rest =>
    have := decidableNothingOverwritten (u.insert r entry) rest
    inferInstanceAs (Decidable (_ ∧ _))
  | u, (r, none) :: rest => decidableNothingOverwritten (u.erase r) rest

theorem nothingOverwritten_append {u : UnspentSet} {changes later : List Change} :
    NothingOverwritten u (changes ++ later)
      ↔ NothingOverwritten u changes
        ∧ NothingOverwritten (changes.foldl UnspentSet.apply u) later := by
  induction changes generalizing u with
  | nil => simp [NothingOverwritten]
  | cons change rest ih =>
    obtain ⟨r, entry?⟩ := change
    cases entry? with
    | some entry =>
      simp only [List.cons_append, NothingOverwritten, List.foldl_cons, UnspentSet.apply]
      rw [ih, and_assoc]
    | none =>
      simp only [List.cons_append, NothingOverwritten, List.foldl_cons, UnspentSet.apply]
      exact ih

theorem nothingOverwritten_endings (u : UnspentSet) (refs : List OutputRef) :
    NothingOverwritten u (endings refs) := by
  induction refs generalizing u with
  | nil => trivial
  | cons r rest ih => exact ih (u.erase r)

theorem nothingOverwritten_creations_iff {u : UnspentSet} {entries : List (OutputRef × Utxo)} :
    NothingOverwritten u (creations entries)
      ↔ (entries.map Prod.fst).Nodup ∧ ∀ e ∈ entries, u.find? e.1 = none := by
  induction entries generalizing u with
  | nil => simp [NothingOverwritten]
  | cons e rest ih =>
    rw [creations_cons, NothingOverwritten, ih, List.map_cons, List.nodup_cons]
    constructor
    · rintro ⟨vacant, distinct, others⟩
      have apart : e.1 ∉ rest.map Prod.fst := by
        intro again
        obtain ⟨other, member, same⟩ := List.mem_map.1 again
        have absent := others other member
        rw [same, SortedMap.find?_insert, if_pos rfl] at absent
        cases absent
      refine ⟨⟨apart, distinct⟩, fun other member => ?_⟩
      rcases List.mem_cons.1 member with rfl | member
      · exact vacant
      · have absent := others other member
        rwa [SortedMap.find?_insert,
          if_neg fun same => apart (List.mem_map.2 ⟨other, member, same⟩)] at absent
    · rintro ⟨⟨apart, distinct⟩, vacant⟩
      refine ⟨vacant e List.mem_cons_self, distinct, fun other member => ?_⟩
      rw [SortedMap.find?_insert,
        if_neg fun same => apart (List.mem_map.2 ⟨other, member, same⟩)]
      exact vacant other (List.mem_cons_of_mem _ member)

/-! ## Records -/

/-- Under references of other ids a record does no more than end entries. -/
theorem Tx.find?_foldl_changes_of_ne (u : UnspentSet) (tx : Tx) (height : UInt64) {r : OutputRef}
    (other : r.txId ≠ tx.id) :
    SortedMap.find? ((tx.changes height).foldl UnspentSet.apply u) r
      = if r ∈ tx.spentRefs then none else u.find? r := by
  refine find?_foldl_changes_of_notMem u tx height fun made => ?_
  obtain ⟨e, member, rfl⟩ := List.mem_map.1 made
  exact other (txId_of_mem_entries member)

/-- A record makes its entries out of the way of what a set had before its block: its places do not
come round again, and where the set has an entry it was ended by the record or one before it. -/
def OutOfTheWay (u : UnspentSet) (height : UInt64) (earlier : List Tx) (tx : Tx) : Prop :=
  ((tx.entries height).map Prod.fst).Nodup
    ∧ ∀ e ∈ tx.entries height, u.find? e.1 = none ∨ ∃ t ∈ earlier ++ [tx], e.1 ∈ t.spentRefs

theorem nothingOverwritten_changes_iff {u : UnspentSet} {tx : Tx} {height : UInt64} :
    NothingOverwritten u (tx.changes height) ↔ OutOfTheWay u height [] tx := by
  rw [Tx.changes, nothingOverwritten_append, nothingOverwritten_creations_iff, OutOfTheWay]
  simp only [nothingOverwritten_endings, true_and, UnspentSet.find?_foldl_endings,
    List.nil_append, List.mem_singleton, exists_eq_left]
  refine and_congr_right fun _ => forall_congr' fun e => imp_congr_right fun _ => ?_
  by_cases ended : e.1 ∈ tx.spentRefs <;> simp [ended]

/-- After one record, a later one is out of the way of the changed set if it is out of the way of
the set before, the first record counted in. -/
theorem outOfTheWay_cons_iff {u : UnspentSet} {height : UInt64} {first tx : Tx}
    {earlier : List Tx} (other : tx.id ≠ first.id) :
    OutOfTheWay ((first.changes height).foldl UnspentSet.apply u) height earlier tx
      ↔ OutOfTheWay u height (first :: earlier) tx := by
  refine and_congr_right fun _ => forall_congr' fun e => imp_congr_right fun member => ?_
  have apart : e.1.txId ≠ first.id := by
    rw [Tx.txId_of_mem_entries member]
    exact other
  rw [Tx.find?_foldl_changes_of_ne u first height apart]
  by_cases ended : e.1 ∈ first.spentRefs <;> simp [ended]

/-- Records of different ids overwrite nothing exactly if each is out of the way. -/
theorem nothingOverwritten_flatMap_iff {u : UnspentSet} {height : UInt64} {txs : List Tx}
    (distinct : (txs.map Tx.id).Nodup) :
    NothingOverwritten u (txs.flatMap fun tx => tx.changes height)
      ↔ ∀ earlier tx later, txs = earlier ++ tx :: later → OutOfTheWay u height earlier tx := by
  induction txs generalizing u with
  | nil => simp [NothingOverwritten]
  | cons first rest ih =>
    obtain ⟨apart, distinct⟩ := List.nodup_cons.1 distinct
    have otherId : ∀ tx ∈ rest, tx.id ≠ first.id := fun tx member same =>
      apart (List.mem_map.2 ⟨tx, member, same⟩)
    -- The later records are judged on the set that the first one leaves, and `outOfTheWay_cons_iff`
    -- takes that back to the set before.
    rw [List.flatMap_cons, nothingOverwritten_append, nothingOverwritten_changes_iff, ih distinct]
    constructor
    · rintro ⟨head, tail⟩ earlier tx later cut
      cases earlier with
      | nil =>
        cases cut
        exact head
      | cons e earlier =>
        obtain ⟨rfl, tails⟩ := List.cons.inj cut
        have member : tx ∈ rest := by simp [tails]
        exact (outOfTheWay_cons_iff (otherId tx member)).1 (tail earlier tx later tails)
    · intro each
      refine ⟨each [] first rest rfl, fun earlier tx later cut => ?_⟩
      have member : tx ∈ rest := by simp [cut]
      rw [outOfTheWay_cons_iff (otherId tx member)]
      exact each (first :: earlier) tx later (by rw [cut, List.cons_append])

/-! ## Blocks that are taken in -/

namespace Chain

theorem Grows.nodup_ids {c after : Chain UnspentSet} {raw : RawBlock} {b : Block}
    (grows : c.Grows raw b after) : (b.txs.map Tx.id).Nodup :=
  grows.derivation.nodup_ids (checkContinuity_eq_ok_iff.1 grows.goesOn).2.2.2

/-- A record whose id was never used before, and whose places suffice, is out of the way. -/
theorem Sound.outOfTheWay {c : Chain UnspentSet} (sound : c.Sound) {height : UInt64}
    {earlier : List Tx} {tx : Tx} (few : tx.outputs.length ≤ UInt32.size)
    (fresh : ∀ before ∈ c.blocks, ∀ old ∈ before.txs, old.id ≠ tx.id) :
    OutOfTheWay c.store height earlier tx := by
  constructor
  · rw [Tx.entries_eq]
    exact nodup_entriesFrom (by rw [Nat.zero_add]; exact few)
  · intro e member
    refine .inl (Option.eq_none_iff_forall_ne_some.2 fun entry found => ?_)
    obtain ⟨before, listed, old, recorded, same⟩ := sound.known e.1 entry found
    exact fresh before listed old recorded (same.trans (Tx.txId_of_mem_entries member))

/-- For every block that a chain takes in, whatever calls came before: the block makes its changes
one after the other, and no unspent entry is overwritten exactly if each of its records is out of the
way; so none is where ids are not used again and places suffice. -/
theorem nothingOverwritten_iff (g : Genesis) (calls : List Call) (call : Call) {b : Block}
    {after : Chain UnspentSet} (taken : ((start g).run calls).call call = (.ok (some b), after)) :
    let c := (start g).run calls
    (∃ o, deriveTxs g b.height call.source.txs ({ base := c.store } : Overlay UnspentSet)
          = (.ok b.txs, o)
        ∧ perform ({ base := c.store } : Overlay UnspentSet) b.changes = (.ok (), o))
      ∧ (NothingOverwritten c.store b.changes
        ↔ ∀ earlier tx later, b.txs = earlier ++ tx :: later →
            OutOfTheWay c.store b.height earlier tx)
      ∧ ((∀ tx ∈ b.txs, tx.outputs.length ≤ UInt32.size
          ∧ ∀ before ∈ c.blocks, ∀ old ∈ before.txs, old.id ≠ tx.id) →
        NothingOverwritten c.store b.changes) := by
  intro c
  have sound : c.Sound := run_sound g calls
  have grows : c.Grows call.source b after := by
    rcases call_grows sound.bears call with ⟨b', after', answered, _, grows, _⟩ | ⟨_, noBlock⟩
    · rw [taken] at answered
      cases answered
      exact grows
    · rw [taken] at noBlock
      exact absurd rfl (noBlock b)
  have exactly : NothingOverwritten c.store b.changes ↔ _ :=
    nothingOverwritten_flatMap_iff grows.nodup_ids
  refine ⟨?_, exactly, fun fresh => exactly.2 fun earlier tx later cut => ?_⟩
  · rw [grows.header.1, ← genesis_run g calls]
    exact grows.called
  · have member : tx ∈ b.txs := by simp [cut]
    exact sound.outOfTheWay (fresh tx member).1 (fresh tx member).2

/-- Here the second block spends from the issue under an id of its own. -/
theorem nothingOverwritten_second_block :
    let c := (start ⟨"gen", 10⟩).run
      [.raw ⟨10, "a", "", [⟨"gen", [], [⟨2500, none⟩, ⟨7500, none⟩]⟩]⟩]
    ∃ b after, c.call (.raw ⟨11, "b", "a", [⟨"next", [⟨"gen", 0⟩], [⟨2000, none⟩]⟩]⟩)
        = (.ok (some b), after)
      ∧ NothingOverwritten c.store b.changes := by
  have taken := nothingOverwritten_iff ⟨"gen", 10⟩
    [.raw ⟨10, "a", "", [⟨"gen", [], [⟨2500, none⟩, ⟨7500, none⟩]⟩]⟩]
    (.raw ⟨11, "b", "a", [⟨"next", [⟨"gen", 0⟩], [⟨2000, none⟩]⟩]⟩) rfl
  exact ⟨_, _, rfl, taken.2.2 (by decide)⟩

/-- A block that is taken in may overwrite what is unspent: a later transaction with the id of the
issue makes its second entry in the place of one that was never spent, whose value is lost. -/
theorem unspent_overwritten_by_later_block :
    let c := (start ⟨"gen", 10⟩).run
      [.raw ⟨10, "a", "", [⟨"gen", [], [⟨2500, none⟩, ⟨7500, none⟩]⟩]⟩]
    ∃ b after, c.call (.raw ⟨11, "b", "a", [⟨"gen", [⟨"gen", 0⟩], [⟨1000, none⟩, ⟨1500, none⟩]⟩]⟩)
        = (.ok (some b), after)
      ∧ ¬ NothingOverwritten c.store b.changes
      ∧ c.store.totalValue = 10000 ∧ after.store.totalValue = 2500 :=
  ⟨_, _, rfl, by decide, by decide, by decide⟩

end Chain

end TokenLedger
