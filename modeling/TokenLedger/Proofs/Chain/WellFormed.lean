import Mathlib.Data.List.Chain
import TokenLedger.Proofs.Chain.Growth

/-!
What a chain in memory and its ledger look like after any calls, accepted or not. The blocks follow
one another without a gap, their records are told apart by well-formed ids, the token is issued at
most once and at the very beginning, and there is no entry in the ledger without value or with a
reference that could not be written out (`wellFormed_run`).
-/

namespace TokenLedger.Chain

/-- What an entry of the ledger is like. -/
structure WellFormedEntry (c : Chain UnspentSet) (r : OutputRef) (entry : Utxo) : Prop where
  idFormed : WellFormedId r.txId
  worth : 0 < entry.value.toNat
  token : entry.role = .token
  notBelow : c.genesis.height ≤ entry.height
  notAbove : ∃ head, c.headHeight? = some head ∧ entry.height ≤ head

/-- What the blocks and the ledger of a chain are like. -/
structure WellFormed (c : Chain UnspentSet) : Prop where
  heights : ∀ i b, c.blocks[i]? = some b → b.height.toNat = c.genesis.height.toNat + i
  linked : c.blocks.IsChain fun b next => next.previousHash = b.hash
  idsFormed : ∀ b ∈ c.blocks, ∀ tx ∈ b.txs, WellFormedId tx.id
  idsApart : ∀ b ∈ c.blocks, (b.txs.map Tx.id).Nodup
  placed : ∀ b ∈ c.blocks, ∀ tx ∈ b.txs, tx.height = b.height
  oneIssue : ((c.blocks.flatMap Block.txs).filter fun tx => tx.kind = .genesis).length ≤ 1
  issueFirst : ∀ i b, c.blocks[i]? = some b → ∀ tx ∈ b.txs, tx.kind = .genesis → i = 0
  entries : ∀ r entry, c.store.find? r = some entry → c.WellFormedEntry r entry

variable {c : Chain UnspentSet} {b : Block}

/-! ## The blocks -/

theorem linked_run (g : Genesis) (calls : List Call) :
    ((start g).run calls).blocks.IsChain fun b next => next.previousHash = b.hash := by
  refine (run_of_grows (P := fun c => c.blocks.IsChain fun b next => next.previousHash = b.hash)
    ?_ .nil calls).2
  intro c after raw b _ linked grows
  obtain ⟨_, linkedToHead, _⟩ := checkContinuity_eq_ok_iff.1 grows.goesOn
  obtain ⟨_, _, previousHash⟩ := grows.header
  rw [grows.blocks_eq]
  refine List.isChain_append.2 ⟨linked, .singleton b, ?_⟩
  intro head last next first
  obtain rfl : b = next := Option.some.inj first
  rw [previousHash]
  exact linkedToHead head last

theorem placed_run (g : Genesis) (calls : List Call) :
    ∀ b ∈ ((start g).run calls).blocks, ∀ tx ∈ b.txs, tx.height = b.height :=
  forall_blocks_run (P := fun _ b => ∀ tx ∈ b.txs, tx.height = b.height)
    (fun grows => grows.derivation.height_eq) g calls

/-- The blocks lie between the first height and that of the head. -/
theorem Sound.height_mem (sound : c.Sound) (member : b ∈ c.blocks) :
    c.genesis.height ≤ b.height ∧ ∃ head, c.headHeight? = some head ∧ b.height ≤ head := by
  obtain ⟨i, place⟩ := List.mem_iff_getElem?.1 member
  have inside : i < c.blocks.length := (List.getElem?_eq_some_iff.1 place).1
  have height := sound.heights i b place
  have last : c.blocks[c.blocks.length - 1]? = some c.blocks[c.blocks.length - 1] :=
    List.getElem?_eq_getElem (by omega)
  have headHeight := sound.heights _ _ last
  have head : c.head? = some c.blocks[c.blocks.length - 1] := by
    rw [head?, List.getLast?_eq_getElem?, last]
  constructor
  · rw [UInt64.le_iff_toNat_le]
    omega
  · refine ⟨c.blocks[c.blocks.length - 1].height, by rw [headHeight?, head]; rfl, ?_⟩
    rw [UInt64.le_iff_toNat_le]
    omega

/-! ## The issue -/

/-- A record of the issue is one of the issue of this ledger, in a block of the first height. -/
theorem issue_run (g : Genesis) (calls : List Call) :
    ∀ b ∈ ((start g).run calls).blocks, ∀ tx ∈ b.txs, tx.kind = .genesis →
      b.height = ((start g).run calls).genesis.height
        ∧ tx.id = ((start g).run calls).genesis.txId := by
  refine forall_blocks_run (P := fun g b => ∀ tx ∈ b.txs, tx.kind = .genesis →
    b.height = g.height ∧ tx.id = g.txId) ?_ g calls
  intro c after raw b grows tx member genesis
  obtain ⟨o, derived, _⟩ := grows.called
  obtain ⟨height, _, _⟩ := grows.header
  rw [height]
  exact issue_of_mem_deriveTxs derived member genesis

/-- Only the block at the beginning has the first height. -/
theorem Sound.eq_zero_of_height (sound : c.Sound) {i : Nat} (place : c.blocks[i]? = some b)
    (first : b.height = c.genesis.height) : i = 0 := by
  have height := sound.heights i b place
  rw [first] at height
  omega

/-- Where all records of the issue have one id, different ids leave room for one of them. -/
theorem length_filter_genesis_le {txs : List Tx} {txId : String}
    (distinct : (txs.map Tx.id).Nodup) (same : ∀ tx ∈ txs, tx.kind = .genesis → tx.id = txId) :
    (txs.filter fun tx => tx.kind = .genesis).length ≤ 1 := by
  have apart : ((txs.filter fun tx => tx.kind = .genesis).map Tx.id).Nodup :=
    (List.filter_sublist.map Tx.id).nodup distinct
  have all : ∀ id ∈ (txs.filter fun tx => tx.kind = .genesis).map Tx.id, id = txId := by
    intro id member
    obtain ⟨tx, issue, rfl⟩ := List.mem_map.1 member
    obtain ⟨listed, genesis⟩ := List.mem_filter.1 issue
    exact same tx listed (of_decide_eq_true genesis)
  rw [List.eq_replicate_of_mem all, List.nodup_replicate, List.length_map] at apart
  exact apart

theorem oneIssue_run (g : Genesis) (calls : List Call) :
    ((((start g).run calls).blocks.flatMap Block.txs).filter
      fun tx => tx.kind = .genesis).length ≤ 1 := by
  have sound := run_sound g calls
  have issue := issue_run g calls
  generalize (start g).run calls = c at sound issue
  cases blocks : c.blocks with
  | nil => exact Nat.zero_le 1
  | cons first rest =>
    have later : (rest.flatMap Block.txs).filter (fun tx => tx.kind = .genesis) = [] := by
      refine List.filter_eq_nil_iff.2 fun tx member genesis => ?_
      obtain ⟨b, inRest, recorded⟩ := List.mem_flatMap.1 member
      obtain ⟨i, place⟩ := List.mem_iff_getElem?.1 inRest
      have place : c.blocks[i + 1]? = some b := by
        rw [blocks]
        exact place
      have height := (issue b (List.mem_of_getElem? place) tx recorded
        (of_decide_eq_true genesis)).1
      exact Nat.succ_ne_zero i (sound.eq_zero_of_height place height)
    have member : first ∈ c.blocks := by
      rw [blocks]
      exact List.mem_cons_self
    rw [List.flatMap_cons, List.filter_append, later, List.append_nil]
    exact length_filter_genesis_le (sound.distinct first member)
      fun tx recorded genesis => (issue first member tx recorded genesis).2

/-! ## The ledger -/

/-- Every entry of the ledger is one that a record has made. -/
theorem made_run (g : Genesis) (calls : List Call) :
    ∀ r entry, ((start g).run calls).store.find? r = some entry →
      ∃ b ∈ ((start g).run calls).blocks, ∃ tx ∈ b.txs, (r, entry) ∈ tx.entries b.height := by
  refine (run_of_grows (P := fun c => ∀ r entry, c.store.find? r = some entry →
    ∃ b ∈ c.blocks, ∃ tx ∈ b.txs, (r, entry) ∈ tx.entries b.height) ?_ nofun calls).2
  intro c after raw b _ made grows r entry found
  rw [grows.blocks_eq]
  rcases grows.derivation.mem_entries found with before | ⟨tx, recorded, own⟩
  · obtain ⟨other, member, tx, recorded, own⟩ := made r entry before
    exact ⟨other, List.mem_append_left _ member, tx, recorded, own⟩
  · exact ⟨b, List.mem_append_right _ List.mem_cons_self, tx, recorded, own⟩

theorem wellFormedEntry_run (g : Genesis) (calls : List Call) {r : OutputRef} {entry : Utxo}
    (found : ((start g).run calls).store.find? r = some entry) :
    ((start g).run calls).WellFormedEntry r entry := by
  have sound := run_sound g calls
  obtain ⟨b, member, tx, recorded, made⟩ := made_run g calls r entry found
  obtain ⟨notBelow, notAbove⟩ := sound.height_mem member
  have txId : r.txId = tx.id := Tx.txId_of_mem_entries made
  rw [Tx.entries_eq] at made
  obtain ⟨_, _, _, _, same⟩ := exists_of_mem_entriesFrom made
  obtain ⟨_, rfl⟩ := Prod.mk.inj same
  refine ⟨?_, sound.bears r _ found, rfl, notBelow, notAbove⟩
  rw [txId]
  exact idsFormed_run g calls b member tx recorded

/-- Whatever calls a chain has answered: its blocks follow one another from the first height on, each
names the one before it, the records of each have well-formed and different ids and its height, at
most one record of all is of the issue, and in the first block; and every entry of the ledger is of
token that is worth something, made under a well-formed id at a height of the chain. -/
theorem wellFormed_run (g : Genesis) (calls : List Call) :
    ((start g).run calls).genesis = g ∧ ((start g).run calls).WellFormed where
  left := genesis_run g calls
  right :=
    have sound := run_sound g calls
    { heights := sound.heights
      linked := linked_run g calls
      idsFormed := idsFormed_run g calls
      idsApart := sound.distinct
      placed := placed_run g calls
      oneIssue := oneIssue_run g calls
      issueFirst := by
        intro i b place tx recorded genesis
        have issue := issue_run g calls b (List.mem_of_getElem? place) tx recorded genesis
        exact sound.eq_zero_of_height place issue.1
      entries := fun r entry found => wellFormedEntry_run g calls found }

end TokenLedger.Chain
