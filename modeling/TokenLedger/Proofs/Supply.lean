import TokenLedger.Proofs.Chain.Growth

/-!
The supply of token. Whatever is unspent or was burnt was once issued: the entries that a record ends
bore what its outputs were assigned and what it burnt, and only the issue brings in more. Of that
nothing is lost, unless a new entry takes the place of an unspent one; entries get in each other's
way only if transactions share an id, or if the places of one transaction's outputs come round again.
-/

namespace TokenLedger

/-- The token value that records burnt. -/
def burntTotal (txs : List Tx) : Nat := Amount.total (txs.map Tx.burntFee)

/-- The token value that records of a block brought into being. -/
def Genesis.issuedTotal (g : Genesis) (height : UInt64) (txs : List Tx) : Nat :=
  (txs.map fun tx => g.issuedBy height tx.toRaw).sum

/-! ## One record -/

namespace Tx.FollowsFrom

variable {tx : Tx} {raw : RawTx} {height : UInt64} {issue : Nat} {u : UnspentSet}

/-- A record keeps the supply within what there was and what it issues. -/
theorem supply_le (follows : tx.FollowsFrom raw height issue u) :
    UnspentSet.totalValue ((tx.changes height).foldl UnspentSet.apply u) + tx.burntFee.toNat
      ≤ u.totalValue + issue := by
  have ended := UnspentSet.totalValue_endings (u := u) follows.distinct
  have created := UnspentSet.totalValue_creations_le
    ((endings tx.spentRefs).foldl UnspentSet.apply u) (tx.entries height)
  have balanced := follows.balanced
  rw [Tx.entries_eq, total_entriesFrom] at created
  rw [Tx.changes, List.foldl_append, Tx.entries_eq]
  omega

/-- Nothing is lost where the new entries are under different references without an entry. -/
theorem supply_eq (follows : tx.FollowsFrom raw height issue u)
    (distinct : ((tx.entries height).map Prod.fst).Nodup)
    (vacant : ∀ e ∈ tx.entries height, u.find? e.1 = none) :
    UnspentSet.totalValue ((tx.changes height).foldl UnspentSet.apply u) + tx.burntFee.toNat
      = u.totalValue + issue := by
  have stillVacant : ∀ e ∈ tx.entries height,
      SortedMap.find? ((endings tx.spentRefs).foldl UnspentSet.apply u) e.1 = none := by
    intro e member
    rw [UnspentSet.find?_foldl_endings]
    split
    · rfl
    · exact vacant e member
  have ended := UnspentSet.totalValue_endings (u := u) follows.distinct
  have created := UnspentSet.totalValue_creations distinct stillVacant
  have balanced := follows.balanced
  rw [Tx.entries_eq, total_entriesFrom] at created
  rw [Tx.changes, List.foldl_append, Tx.entries_eq]
  omega

end Tx.FollowsFrom

/-! ## The records of a block -/

namespace Derivation

variable {g : Genesis} {height : UInt64} {u u' : UnspentSet} {raws : List RawTx} {txs : List Tx}

theorem supply_le (derivation : Derivation g height u raws txs u') :
    u'.totalValue + burntTotal txs ≤ u.totalValue + g.issuedTotal height txs := by
  induction derivation with
  | done => exact Nat.le_refl _
  | @kept u u' raw tx raws txs follows later ih =>
    have first := follows.supply_le
    rw [← follows.unaltered] at first
    simp only [burntTotal, Genesis.issuedTotal, List.map_cons, Amount.total_cons,
      List.sum_cons] at ih ⊢
    omega
  | passedOver later ih => exact ih

/-- Nothing is lost where the records have different ids that no entry has, and none has so many
outputs that their places come round again. -/
theorem supply_eq (derivation : Derivation g height u raws txs u')
    (distinct : (txs.map Tx.id).Nodup) (few : ∀ tx ∈ txs, tx.outputs.length ≤ UInt32.size)
    (unknown : ∀ tx ∈ txs, ∀ r entry, u.find? r = some entry → r.txId ≠ tx.id) :
    u'.totalValue + burntTotal txs = u.totalValue + g.issuedTotal height txs := by
  induction derivation with
  | done => rfl
  | @kept u u' raw tx raws txs follows later ih =>
    obtain ⟨apart, distinct⟩ := List.nodup_cons.1 distinct
    have keys : ((tx.entries height).map Prod.fst).Nodup := by
      rw [Tx.entries_eq]
      exact nodup_entriesFrom (by rw [Nat.zero_add]; exact few tx List.mem_cons_self)
    have vacant : ∀ e ∈ tx.entries height, u.find? e.1 = none := by
      intro e member
      refine Option.eq_none_iff_forall_ne_some.2 fun entry found => ?_
      exact unknown tx List.mem_cons_self e.1 entry found (Tx.txId_of_mem_entries member)
    have stillUnknown : ∀ other ∈ txs, ∀ r entry,
        SortedMap.find? ((tx.changes height).foldl UnspentSet.apply u) r = some entry →
          r.txId ≠ other.id := by
      intro other member r entry found same
      rcases Tx.mem_entries_of_find? found with ⟨before, _⟩ | made
      · exact unknown other (List.mem_cons_of_mem _ member) r entry before same
      · have own : r.txId = tx.id := Tx.txId_of_mem_entries made
        exact apart (List.mem_map.2 ⟨other, member, same.symm.trans own⟩)
    have first := follows.supply_eq keys vacant
    have rest := ih distinct (fun other member => few other (List.mem_cons_of_mem _ member))
      stillUnknown
    rw [← follows.unaltered] at first
    simp only [burntTotal, Genesis.issuedTotal, List.map_cons, Amount.total_cons,
      List.sum_cons] at rest ⊢
    omega
  | passedOver later ih => exact ih distinct few unknown

end Derivation

/-! ## What was issued -/

namespace Genesis

variable {g : Genesis} {height : UInt64}

/-- Only the first block issues. -/
theorem issuedTotal_of_ne (later : height ≠ g.height) (txs : List Tx) :
    g.issuedTotal height txs = 0 := by
  induction txs with
  | nil => rfl
  | cons tx rest ih =>
    have nothing : g.issuedBy height tx.toRaw = 0 := if_neg fun issue => later issue.1
    rw [issuedTotal, List.map_cons, List.sum_cons, nothing, Nat.zero_add]
    exact ih

/-- The first block issues what its record of the issue is worth, if it has one. -/
theorem issuedTotal_of_eq (first : height = g.height) {txs : List Tx}
    (distinct : (txs.map Tx.id).Nodup) :
    g.issuedTotal height txs
      = ((txs.find? fun tx => tx.id = g.txId).map fun tx => tx.toRaw.issuable).getD 0 := by
  induction txs with
  | nil => rfl
  | cons tx rest ih =>
    obtain ⟨apart, distinct⟩ := List.nodup_cons.1 distinct
    rw [issuedTotal, List.map_cons, List.sum_cons]
    by_cases issue : tx.id = g.txId
    · have others : (rest.map fun tx => g.issuedBy height tx.toRaw).sum = 0 := by
        refine List.sum_eq_zero_iff_forall_eq_nat.2 fun n member => ?_
        obtain ⟨other, listed, rfl⟩ := List.mem_map.1 member
        refine if_neg fun again => apart (List.mem_map.2 ⟨other, listed, ?_⟩)
        exact again.2.trans issue.symm
      have own : g.issuedBy height tx.toRaw = tx.toRaw.issuable := if_pos ⟨first, issue⟩
      rw [others, own, List.find?_cons_of_pos (by simpa using issue)]
      rfl
    · have nothing : g.issuedBy height tx.toRaw = 0 := if_neg fun own => issue own.2
      rw [nothing, Nat.zero_add, List.find?_cons_of_neg (by simpa using issue)]
      exact ih distinct

end Genesis

/-! ## Whole runs -/

namespace Chain

section

variable {σ : Type}

/-- The token value that all blocks burnt. -/
def burntTotal (c : Chain σ) : Nat := (c.blocks.map fun b => TokenLedger.burntTotal b.txs).sum

/-- The record of the issue, once it was met. -/
def issue? (c : Chain σ) : Option Tx :=
  c.blocks.head?.bind fun b => b.txs.find? fun tx => tx.id = c.genesis.txId

/-- What the issue is worth: the value of its outputs without data. -/
def issuedTotal (c : Chain σ) : Nat := (c.issue?.map fun tx => tx.toRaw.issuable).getD 0

/-- No two blocks have records of one id. -/
def IdsApart (c : Chain σ) : Prop :=
  c.blocks.Pairwise fun b later => ∀ tx ∈ b.txs, ∀ other ∈ later.txs, tx.id ≠ other.id

/-- No record has more outputs than there are places. -/
def PlacesSuffice (c : Chain σ) : Prop :=
  ∀ b ∈ c.blocks, ∀ tx ∈ b.txs, tx.outputs.length ≤ UInt32.size

instance (c : Chain σ) : Decidable c.IdsApart := inferInstanceAs (Decidable (List.Pairwise _ _))

instance (c : Chain σ) : Decidable c.PlacesSuffice :=
  inferInstanceAs (Decidable (∀ b ∈ c.blocks, ∀ tx ∈ b.txs, tx.outputs.length ≤ UInt32.size))

end

variable {c after : Chain UnspentSet} {raw : RawBlock} {b : Block}

theorem Grows.burntTotal (grows : c.Grows raw b after) :
    after.burntTotal = c.burntTotal + TokenLedger.burntTotal b.txs := by
  rw [Chain.burntTotal, Chain.burntTotal, grows.blocks_eq]
  simp

theorem Grows.issuedTotal (sound : c.Sound) (grows : c.Grows raw b after) :
    after.issuedTotal = c.issuedTotal + c.genesis.issuedTotal b.height b.txs := by
  obtain ⟨next, _, _, ids⟩ := checkContinuity_eq_ok_iff.1 grows.goesOn
  have first := sound.first_iff next
  rw [← grows.header.1] at first
  unfold Chain.issuedTotal issue?
  rw [grows.blocks_eq, grows.genesis_eq]
  cases blocks : c.blocks with
  | nil =>
    rw [Genesis.issuedTotal_of_eq (first.2 blocks) (grows.derivation.nodup_ids ids)]
    exact (Nat.zero_add _).symm
  | cons head rest =>
    have later : b.height ≠ c.genesis.height := by
      rw [ne_eq, first, blocks]
      exact List.cons_ne_nil head rest
    rw [Genesis.issuedTotal_of_ne later]
    rfl

/-- What is unspent and what was burnt never exceeds what was issued. -/
theorem supply_le_run (g : Genesis) (calls : List Call) :
    let c := (start g).run calls
    c.store.totalValue + c.burntTotal ≤ c.issuedTotal := by
  refine (run_of_grows (P := fun c => c.store.totalValue + c.burntTotal ≤ c.issuedTotal)
    ?_ (Nat.le_refl _) calls).2
  -- One more block adds to both sides: to the left what it leaves unspent and burns, to the right
  -- what it issues, which is nothing unless it is the first.
  intro c after raw b sound supply grows
  have burnt := grows.burntTotal
  have issued := grows.issuedTotal sound
  have step := grows.derivation.supply_le
  omega

/-- The supply after any calls. What is unspent and what was burnt never exceeds what was issued,
and makes up all of it as long as no id is used in two blocks and places suffice. -/
theorem supply_after_any_calls (g : Genesis) (calls : List Call) :
    let c := (start g).run calls
    c.store.totalValue + c.burntTotal ≤ c.issuedTotal
      ∧ (c.IdsApart → c.PlacesSuffice → c.store.totalValue + c.burntTotal = c.issuedTotal) := by
  refine ⟨supply_le_run g calls, ?_⟩
  refine (run_of_grows (P := fun c =>
      c.IdsApart → c.PlacesSuffice → c.store.totalValue + c.burntTotal = c.issuedTotal)
    ?_ (fun _ _ => rfl) calls).2
  intro c after raw b sound supply grows apart suffice
  have burnt := grows.burntTotal
  have issued := grows.issuedTotal sound
  rw [IdsApart, grows.blocks_eq, List.pairwise_append] at apart
  rw [PlacesSuffice, grows.blocks_eq] at suffice
  obtain ⟨apart, _, fresh⟩ := apart
  obtain ⟨_, _, _, ids⟩ := checkContinuity_eq_ok_iff.1 grows.goesOn
  have before := supply apart fun other member => suffice other (List.mem_append_left _ member)
  have step := grows.derivation.supply_eq (grows.derivation.nodup_ids ids)
    (suffice b (List.mem_append_right _ List.mem_cons_self)) fun tx member r entry found same => by
      obtain ⟨other, listed, earlier, recorded, id_eq⟩ := sound.known r entry found
      exact fresh other listed b List.mem_cons_self earlier recorded tx member (id_eq.trans same)
  omega

/-- Half of the issue is spent and a part of that is burnt; a block that does not go on from the head
changes nothing. -/
theorem supply_after_issue_and_spending :
    let c := (start ⟨"gen", 10⟩).run
      [.raw ⟨10, "a", "", [⟨"gen", [], [⟨2500, none⟩, ⟨2500, none⟩]⟩]⟩,
        .raw ⟨13, "d", "c", []⟩,
        .raw ⟨11, "b", "a", [⟨"next", [⟨"gen", 0⟩, ⟨"gen", 0⟩], [⟨2000, none⟩]⟩]⟩]
    c.store.totalValue + c.burntTotal = c.issuedTotal
      ∧ c.issuedTotal = 5000 ∧ c.burntTotal = 500 :=
  ⟨(supply_after_any_calls _ _).2 (by decide) (by decide), by decide, by decide⟩

end Chain

end TokenLedger
