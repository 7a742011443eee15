import Mathlib.Data.List.Nodup
import TokenLedger.Proofs.Chain.Growth

/-!
What the blocks of a chain tell of its ledger. They are a complete record: whoever goes through them
in order, takes out what the records spent and puts in what they made arrives at the unspent outputs
of the chain (`store_eq_ofBlocks`). And nothing in them is spent twice: behind every input with a
token value is an output of an earlier record that nothing has spent since
(`spent_from_earlier_record`).
-/

namespace TokenLedger

/-! ## Going through the blocks -/

namespace UnspentSet

/-- The set after a record at a height, told from the inputs and outputs of the record alone. -/
def record (height : UInt64) (u : UnspentSet) (tx : Tx) : UnspentSet :=
  let left := tx.inputs.foldl (fun u i => if i.tokenValue?.isSome then u.erase i.ref else u) u
  tx.outputs.foldl
    (fun u o =>
      if o.role = .token then
        u.insert (tx.outputRef o.index) { value := o.tokenValue, height, role := .token }
      else u)
    left

/-- The set that blocks tell of, gone through from the first on. -/
def ofBlocks (blocks : List Block) : UnspentSet :=
  blocks.foldl (fun u b => b.txs.foldl (record b.height) u) SortedMap.empty

theorem foldl_erase_inputs (u : UnspentSet) (inputs : List TxInput) :
    inputs.foldl (fun u i => if i.tokenValue?.isSome then u.erase i.ref else u) u
      = (endings ((inputs.filter fun i => i.tokenValue?.isSome).map TxInput.ref)).foldl apply u := by
  induction inputs generalizing u with
  | nil => rfl
  | cons i rest ih =>
    rw [List.foldl_cons, ih, List.filter_cons]
    by_cases value : i.tokenValue?.isSome
    · rw [if_pos value, if_pos value]
      rfl
    · rw [if_neg value, if_neg value]

/-- Where every output names its own place, putting in by the names makes the entries that the places
make. -/
theorem foldl_insert_outputs (tx : Tx) (height : UInt64) {position : Nat}
    {outputs : List TxOutput}
    (placed : ∀ i o, outputs[i]? = some o → o.index = UInt32.ofNat (position + i))
    (u : UnspentSet) :
    outputs.foldl
        (fun u o =>
          if o.role = .token then
            u.insert (tx.outputRef o.index) { value := o.tokenValue, height, role := .token }
          else u)
        u
      = (creations (entriesFrom tx.id height position outputs)).foldl apply u := by
  induction outputs generalizing position u with
  | nil => rfl
  | cons o rest ih =>
    have first : o.index = UInt32.ofNat position := placed 0 o rfl
    have later : ∀ i o, rest[i]? = some o → o.index = UInt32.ofNat (position + 1 + i) := by
      intro i o found
      rw [Nat.add_assoc, Nat.add_comm 1 i]
      exact placed (i + 1) o found
    rw [List.foldl_cons, ih later]
    by_cases token : o.role = .token
    · rw [if_pos token, entriesFrom_cons_token token, first]
      rfl
    · rw [if_neg token, entriesFrom_cons_other token]

end UnspentSet

namespace Tx.FollowsFrom

variable {tx : Tx} {raw : RawTx} {height : UInt64} {issue : Nat} {u : UnspentSet}

theorem index_eq (follows : tx.FollowsFrom raw height issue u) {i : Nat} {o : TxOutput}
    (found : tx.outputs[i]? = some o) : o.index = UInt32.ofNat i := by
  have place := congrArg (fun places => places[i]?) follows.placed
  simp only [Tx.ofRaw, List.getElem?_map, found, Option.map_some, List.getElem?_mapIdx,
    Option.map_map] at place
  cases listed : raw.outputs[i]? with
  | none =>
    rw [listed] at place
    cases place
  | some r =>
    rw [listed] at place
    exact Option.some.inj place

theorem record_eq (follows : tx.FollowsFrom raw height issue u) :
    u.record height tx = (tx.changes height).foldl UnspentSet.apply u := by
  have placed : ∀ i o, tx.outputs[i]? = some o → o.index = UInt32.ofNat (0 + i) := by
    intro i o found
    rw [Nat.zero_add]
    exact follows.index_eq found
  rw [UnspentSet.record, UnspentSet.foldl_erase_inputs, UnspentSet.foldl_insert_outputs tx height placed,
    Tx.changes, List.foldl_append, Tx.entries_eq, spentRefs]

end Tx.FollowsFrom

theorem Derivation.foldl_record {g : Genesis} {height : UInt64} {u u' : UnspentSet}
    {raws : List RawTx} {txs : List Tx} (derivation : Derivation g height u raws txs u') :
    txs.foldl (UnspentSet.record height) u = u' := by
  induction derivation with
  | done => rfl
  | kept follows later ih => rw [List.foldl_cons, follows.record_eq, ih]
  | passedOver later ih => exact ih

namespace Chain

/-- The blocks are a complete record of the ledger: after any calls, the unspent outputs are those
that the blocks tell of. So chains with the same blocks have the same unspent outputs, whatever else
was offered to them. -/
theorem store_eq_ofBlocks (g : Genesis) (calls : List Call) :
    let c := (start g).run calls
    c.store = UnspentSet.ofBlocks c.blocks
      ∧ ∀ (g' : Genesis) (calls' : List Call),
        ((start g').run calls').blocks = c.blocks → ((start g').run calls').store = c.store := by
  have told : ∀ (g : Genesis) (calls : List Call),
      ((start g).run calls).store = UnspentSet.ofBlocks ((start g).run calls).blocks := by
    intro g calls
    refine (run_of_grows (P := fun c => c.store = UnspentSet.ofBlocks c.blocks)
      ?_ rfl calls).2
    intro c after raw b _ same grows
    rw [grows.blocks_eq, UnspentSet.ofBlocks, List.foldl_append, ← UnspentSet.ofBlocks, ← same]
    exact grows.derivation.foldl_record.symm
  refine ⟨told g calls, fun g' calls' same => ?_⟩
  rw [told g' calls', told g calls, same]

/-- One of these chains was also offered a block that does not go on from its head, and a transaction
that is not about token. -/
theorem store_eq_of_same_blocks :
    let issue : Call := .raw ⟨10, "a", "", [⟨"gen", [], [⟨2500, none⟩, ⟨7500, none⟩]⟩]⟩
    let c := (start ⟨"gen", 10⟩).run
      [issue, .raw ⟨11, "b", "a", [⟨"next", [⟨"gen", 0⟩], [⟨2000, none⟩]⟩]⟩]
    let d := (start ⟨"gen", 10⟩).run
      [issue, .raw ⟨11, "b", "z", []⟩,
        .raw ⟨11, "b", "a", [⟨"other", [⟨"next", 0⟩], [⟨1, none⟩]⟩,
          ⟨"next", [⟨"gen", 0⟩], [⟨2000, none⟩]⟩]⟩]
    d.blocks = c.blocks ∧ d.store = c.store :=
  ⟨rfl, (store_eq_ofBlocks ⟨"gen", 10⟩ _).2 ⟨"gen", 10⟩ _ rfl⟩

end Chain

/-! ## What was spent -/

/-- A record makes a token output of a value under a reference. -/
def Tx.Creates (tx : Tx) (r : OutputRef) (v : UInt64) : Prop :=
  tx.id = r.txId ∧ ∃ o ∈ tx.outputs, o.role = .token ∧ o.index = r.index ∧ o.tokenValue = v

/-- What is under a reference is left from one of some records: that one made it with this value, and
none since then has spent it. -/
def LeftBy (past : List Tx) (r : OutputRef) (v : UInt64) : Prop :=
  ∃ earlier creator since, past = earlier ++ creator :: since ∧ creator.Creates r v
    ∧ ∀ tx ∈ since, r ∉ tx.spentRefs

/-- Every entry of a set is left from one of some records. -/
def Accounted (past : List Tx) (u : UnspentSet) : Prop :=
  ∀ r entry, u.find? r = some entry → LeftBy past r entry.value

/-- What a record spends was left by the ones before it, and it spends nothing twice. -/
structure SpendsOnce (past : List Tx) (tx : Tx) : Prop where
  left : ∀ i ∈ tx.inputs, ∀ v, i.tokenValue? = some v → LeftBy past i.ref v
  distinct : tx.spentRefs.Nodup

/-- Each of some records spends once, after the ones before it. -/
def EachSpendsOnce : (past records : List Tx) → Prop
  | _, [] => True
  | past, tx :: rest => SpendsOnce past tx ∧ EachSpendsOnce (past ++ [tx]) rest

theorem eachSpendsOnce_append {past records later : List Tx} :
    EachSpendsOnce past (records ++ later)
      ↔ EachSpendsOnce past records ∧ EachSpendsOnce (past ++ records) later := by
  induction records generalizing past with
  | nil => simp [EachSpendsOnce]
  | cons tx rest ih =>
    rw [List.cons_append, EachSpendsOnce, EachSpendsOnce, ih, and_assoc, List.append_assoc,
      List.singleton_append]

/-- A record that does not spend what was left leaves it on. -/
theorem LeftBy.append {past : List Tx} {r : OutputRef} {v : UInt64} (left : LeftBy past r v)
    {tx : Tx} (unspent : r ∉ tx.spentRefs) : LeftBy (past ++ [tx]) r v := by
  obtain ⟨earlier, creator, since, rfl, created, kept⟩ := left
  refine ⟨earlier, creator, since ++ [tx], by simp, created, ?_⟩
  intro other member
  rcases List.mem_append.1 member with before | last
  · exact kept other before
  · rw [List.mem_singleton.1 last]
    exact unspent

namespace Tx.FollowsFrom

variable {tx : Tx} {raw : RawTx} {height : UInt64} {issue : Nat} {u : UnspentSet}

theorem creates_of_mem_entries (follows : tx.FollowsFrom raw height issue u) {r : OutputRef}
    {entry : Utxo} (made : (r, entry) ∈ tx.entries height) : tx.Creates r entry.value := by
  rw [Tx.entries_eq] at made
  obtain ⟨i, o, listed, token, same⟩ := exists_of_mem_entriesFrom made
  cases same
  refine ⟨rfl, o, List.mem_of_getElem? listed, token, ?_, rfl⟩
  rw [follows.index_eq listed, Nat.zero_add]

theorem spendsOnce (follows : tx.FollowsFrom raw height issue u) {past : List Tx}
    (accounted : Accounted past u) : SpendsOnce past tx where
  left := by
    intro i member v value
    obtain ⟨entry, found, rfl⟩ := Option.map_eq_some_iff.1 (follows.found i member v value)
    exact accounted i.ref entry found
  distinct := follows.distinct

theorem accounted (follows : tx.FollowsFrom raw height issue u) {past : List Tx}
    (accounted : Accounted past u) :
    Accounted (past ++ [tx]) ((tx.changes height).foldl UnspentSet.apply u) := by
  intro r entry found
  rcases Tx.mem_entries_of_find? found with ⟨before, unspent⟩ | made
  · exact (accounted r entry before).append unspent
  · exact ⟨past, tx, [], rfl, follows.creates_of_mem_entries made, nofun⟩

end Tx.FollowsFrom

theorem Derivation.eachSpendsOnce {g : Genesis} {height : UInt64} {u u' : UnspentSet}
    {raws : List RawTx} {txs : List Tx} (derivation : Derivation g height u raws txs u')
    {past : List Tx} (accounted : Accounted past u) :
    EachSpendsOnce past txs ∧ Accounted (past ++ txs) u' := by
  -- The set and the records that account for it grow together.
  induction derivation generalizing past with
  | done =>
    rw [List.append_nil]
    exact ⟨trivial, accounted⟩
  | @kept u u' raw tx raws txs follows later ih =>
    obtain ⟨each, accountedLater⟩ := ih (follows.accounted accounted)
    rw [List.append_assoc, List.singleton_append] at accountedLater
    exact ⟨⟨follows.spendsOnce accounted, each⟩, accountedLater⟩
  | passedOver later ih => exact ih accounted

namespace Chain

/-- All records of a chain, in order. -/
def records {σ : Type} (c : Chain σ) : List Tx := c.blocks.flatMap Block.txs

theorem eachSpendsOnce_run (g : Genesis) (calls : List Call) :
    EachSpendsOnce [] ((start g).run calls).records := by
  refine (run_of_grows (P := fun c => EachSpendsOnce [] c.records ∧ Accounted c.records c.store)
    ?_ ⟨trivial, nofun⟩ calls).2.1
  rintro c after raw b _ ⟨each, accounted⟩ grows
  have more : after.records = c.records ++ b.txs := by
    rw [records, records, grows.blocks_eq, List.flatMap_append, List.flatMap_singleton]
  obtain ⟨eachLater, accountedLater⟩ := grows.derivation.eachSpendsOnce accounted
  rw [more]
  exact ⟨eachSpendsOnce_append.2 ⟨each, eachLater⟩, accountedLater⟩

/-- Nothing is spent twice. For every input with a token value in any record of a chain, an earlier
record, of an earlier block or of the same one, made a token output of that value under its
reference; no record since then has spent it, and no other input of the record itself does. -/
theorem spent_from_earlier_record (g : Genesis) (calls : List Call) {past future : List Tx}
    {tx : Tx} (recorded : ((start g).run calls).records = past ++ tx :: future)
    {before after : List TxInput} {i : TxInput} (listed : tx.inputs = before ++ i :: after)
    {v : UInt64} (value : i.tokenValue? = some v) :
    (∃ earlier creator since, past = earlier ++ creator :: since ∧ creator.Creates i.ref v
        ∧ ∀ t ∈ since, i.ref ∉ t.spentRefs)
      ∧ ∀ other ∈ before ++ after, other.tokenValue?.isSome → other.ref ≠ i.ref := by
  have each := eachSpendsOnce_run g calls
  rw [recorded, eachSpendsOnce_append] at each
  obtain ⟨_, spends, _⟩ := each
  rw [List.nil_append] at spends
  refine ⟨spends.left i (by simp [listed]) v value, ?_⟩
  have distinct := spends.distinct
  have recognized : i.tokenValue?.isSome := by simp [value]
  rw [Tx.spentRefs, listed, List.filter_append, List.filter_cons, if_pos recognized,
    List.map_append, List.map_cons, List.nodup_middle, List.nodup_cons, ← List.map_append,
    ← List.filter_append] at distinct
  intro other member isSome same
  exact distinct.1 (List.mem_map.2 ⟨other, List.mem_filter.2 ⟨member, isSome⟩, same⟩)

/-- The third record spends, beside what is not known, an output that the second one made in the same
block, and lists it twice. -/
theorem spent_from_record_of_same_block :
    let calls : List Call :=
      [.raw ⟨10, "a", "", [⟨"gen", [], [⟨2500, none⟩, ⟨7500, none⟩]⟩]⟩,
        .raw ⟨11, "b", "a", [⟨"second", [⟨"gen", 0⟩], [⟨2000, none⟩]⟩,
          ⟨"third", [⟨"none", 3⟩, ⟨"second", 0⟩, ⟨"second", 0⟩], [⟨1, none⟩]⟩]⟩]
    ∃ gen second third, ((start ⟨"gen", 10⟩).run calls).records = [gen, second, third]
      ∧ third.inputs = [⟨⟨"none", 3⟩, none⟩, ⟨⟨"second", 0⟩, some 2000⟩, ⟨⟨"second", 0⟩, none⟩]
      ∧ ∃ earlier creator since, [gen, second] = earlier ++ creator :: since
        ∧ creator.Creates ⟨"second", 0⟩ 2000 ∧ ∀ t ∈ since, ⟨"second", 0⟩ ∉ t.spentRefs := by
  intro calls
  obtain ⟨gen, second, third, recorded, listed⟩ : ∃ gen second third,
      ((start ⟨"gen", 10⟩).run calls).records = [gen, second] ++ third :: []
        ∧ third.inputs
          = [⟨⟨"none", 3⟩, none⟩] ++ ⟨⟨"second", 0⟩, some 2000⟩ :: [⟨⟨"second", 0⟩, none⟩] :=
    ⟨_, _, _, rfl, rfl⟩
  exact ⟨gen, second, third, recorded, listed,
    (spent_from_earlier_record _ calls recorded listed rfl).1⟩

end Chain

end TokenLedger
