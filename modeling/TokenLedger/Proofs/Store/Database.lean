import Mathlib.Data.List.Nodup
import TokenLedger.Proofs.Bytes.Word
import TokenLedger.Proofs.Store.Holding
import TokenLedger.Proofs.Wire.Refusal
import TokenLedger.Store.Database

/-!
What a database keeps. Its three maps keep a set of entries and a list of blocks if each entry and
each block stands there in its stored form under its own key, and nothing else does (`Keeps`). Then
it answers look-ups as the set does, and the set, the blocks and the head can be read back from it.
Blocks that go up are taken in one after the other, and are kept then (`Keeps.commitBlock`). Any
other block is refused, and nothing is changed by it (`Keeps.commitBlock_of_le`).

The order of the keys is of no account for the entries, whose texts are ordered differently from
their references. For the blocks it is the order of the heights.
-/

namespace TokenLedger.Database

theorem utxoKey_inj {r s : OutputRef} : utxoKey r = utxoKey s ↔ r = s :=
  ⟨fun same => OutputRef.text_injective (Utf8.encode_injective same), congrArg utxoKey⟩

theorem compare_blockKey (a b : UInt64) :
    compare (blockKey a) (blockKey b) = compare a.toNat b.toNat :=
  Word.compare_bigEndian a.toNat_lt b.toNat_lt

theorem blockKey_inj {a b : UInt64} : blockKey a = blockKey b ↔ a = b := by
  constructor
  · intro same
    have order := compare_blockKey a b
    rw [same, compare_blockKey, Nat.compare_eq_eq.2 rfl] at order
    exact UInt64.toNat_inj.1 (Nat.compare_eq_eq.1 order.symm)
  · exact congrArg blockKey

theorem readKey_utxoKey {r : OutputRef} (formed : WellFormedId r.txId) :
    readKey (utxoKey r) = .ok r := by
  simp only [readKey, utxoKey, Utf8.decode_encode, OutputRef.parse_text formed]

/-- The key of any other reference is not read. -/
theorem readKey_utxoKey_error {r : OutputRef} (malformed : ¬ WellFormedId r.txId) :
    ∃ e, readKey (utxoKey r) = .error (.corrupt (.notReference e)) := by
  obtain ⟨e, unread⟩ := OutputRef.exists_parse_text_error malformed
  exact ⟨e, by simp only [readKey, utxoKey, Utf8.decode_encode, unread]⟩

theorem readUtxo_bytes (entry : Utxo) : readUtxo entry.bytes = .ok entry := by
  simp only [readUtxo, Utxo.ofBytes_bytes]

theorem readEntry_stored {r : OutputRef} (formed : WellFormedId r.txId) (entry : Utxo)
    (w : UnspentSet) : readEntry w (utxoKey r, entry.bytes) = .ok (w.insert r entry) := by
  simp only [readEntry, readKey_utxoKey formed, readUtxo_bytes]
  rfl

theorem readBlock_bytes {b : Block} (formed : ∀ tx ∈ b.txs, Wire.Codec.RefsFormed tx)
    (fits : b.bytes.length < UInt64.size) : readBlock b.bytes = .ok b := by
  simp only [readBlock, Block.ofBytes_bytes formed fits]

theorem readBlock_bytes_error {b : Block} (malformed : ¬ ∀ tx ∈ b.txs, Wire.Codec.RefsFormed tx)
    (fits : b.bytes.length < UInt64.size) :
    ∃ e, readBlock b.bytes = .error (.corrupt (.undecodable (.codec (.notReference e)))) := by
  obtain ⟨e, unread⟩ := Block.ofBytes_bytes_error malformed fits
  exact ⟨e, by simp only [readBlock, unread]⟩

/-- The stored form of a block reads back just if all references in the block are well-formed. -/
theorem readBlock_bytes_iff {b : Block} (fits : b.bytes.length < UInt64.size) :
    readBlock b.bytes = .ok b ↔ ∀ tx ∈ b.txs, Wire.Codec.RefsFormed tx := by
  constructor
  · intro read
    refine Decidable.byContradiction fun malformed => ?_
    obtain ⟨e, unread⟩ := readBlock_bytes_error malformed fits
    rw [unread] at read
    cases read
  · intro formed
    exact readBlock_bytes formed fits

theorem readHead_littleEndian (height : UInt64) :
    readHead (Word.littleEndian 8 height.toNat) = .ok height := by
  rw [readHead, if_pos (Word.length_littleEndian 8 _),
    Word.ofLittleEndian_littleEndian height.toNat_lt, UInt64.ofNat_toNat]

/-! ## Entries -/

/-- The entries of a set in their stored form, under the texts of their references, and no others. -/
structure KeepsEntries (utxos : SortedMap Bytes Bytes) (u : UnspentSet) : Prop where
  find? : ∀ r, utxos.find? (utxoKey r) = (u.find? r).map Utxo.bytes
  keys : ∀ key bytes, utxos.find? key = some bytes → ∃ r, key = utxoKey r

namespace KeepsEntries

variable {utxos : SortedMap Bytes Bytes} {u : UnspentSet}

theorem empty : KeepsEntries SortedMap.empty SortedMap.empty := ⟨fun _ => rfl, nofun⟩

theorem applyChange (keeps : KeepsEntries utxos u) (change : Change) :
    KeepsEntries (applyChange utxos change) (u.apply change) := by
  obtain ⟨r, entry?⟩ := change
  constructor
  · intro s
    cases entry? <;>
      simp only [Database.applyChange, UnspentSet.apply, SortedMap.find?_insert,
        SortedMap.find?_erase, utxoKey_inj, keeps.find? s] <;>
      split <;> rfl
  · intro key bytes found
    by_cases same : key = utxoKey r
    · exact ⟨r, same⟩
    · refine keeps.keys key bytes ?_
      cases entry? <;>
        simpa only [Database.applyChange, SortedMap.find?_insert, SortedMap.find?_erase,
          if_neg same] using found

theorem foldl_applyChange (keeps : KeepsEntries utxos u) (changes : List Change) :
    KeepsEntries (changes.foldl Database.applyChange utxos)
      (changes.foldl UnspentSet.apply u) := by
  induction changes generalizing utxos u with
  | nil => exact keeps
  | cons change rest ih => exact ih (keeps.applyChange change)

theorem holds {db : Database} (keeps : KeepsEntries db.utxos u) : Holds db u := by
  intro r
  simp only [Store.find?, keeps.find? r]
  cases u.find? r with
  | none => rfl
  | some entry =>
    simp only [Option.map_some, readUtxo?, readUtxo_bytes]
    rfl

theorem mem_toList (keeps : KeepsEntries utxos u) {e : Bytes × Bytes} (listed : e ∈ utxos.toList) :
    ∃ r entry, u.find? r = some entry ∧ e = (utxoKey r, entry.bytes) := by
  obtain ⟨key, bytes⟩ := e
  have found := (SortedMap.find?_eq_some_iff utxos key bytes).2 listed
  obtain ⟨r, same⟩ := keeps.keys key bytes found
  rw [same, keeps.find? r, Option.map_eq_some_iff] at found
  obtain ⟨entry, found, rfl⟩ := found
  exact ⟨r, entry, found, by rw [same]⟩

theorem mem_keys (keeps : KeepsEntries utxos u) {r : OutputRef} {entry : Utxo}
    (found : u.find? r = some entry) : utxoKey r ∈ utxos.toList.map Prod.fst := by
  have kept := keeps.find? r
  rw [found] at kept
  exact SortedMap.mem_keys_of_find? kept

/-- The keys are those of the references that have an entry. -/
theorem perm_keys (keeps : KeepsEntries utxos u) :
    (utxos.toList.map Prod.fst).Perm ((u.toList.map Prod.fst).map utxoKey) := by
  have injective : Function.Injective utxoKey := fun _ _ => utxoKey_inj.1
  rw [List.perm_ext_iff_of_nodup utxos.nodup_keys (List.Nodup.map injective u.nodup_keys)]
  intro key
  constructor
  · intro isKey
    obtain ⟨e, listed, rfl⟩ := List.mem_map.1 isKey
    obtain ⟨r, entry, found, rfl⟩ := keeps.mem_toList listed
    dsimp only
    exact List.mem_map.2 ⟨r, SortedMap.mem_keys_of_find? found, rfl⟩
  · intro isKey
    obtain ⟨r, hasEntry, rfl⟩ := List.mem_map.1 isKey
    obtain ⟨⟨r, entry⟩, listed, rfl⟩ := List.mem_map.1 hasEntry
    exact keeps.mem_keys ((SortedMap.find?_eq_some_iff u r entry).2 listed)

/-- There are as many as there are entries in the set. -/
theorem size_eq (keeps : KeepsEntries utxos u) : utxos.size = u.size := by
  have length := keeps.perm_keys.length_eq
  rwa [List.length_map, List.length_map, List.length_map] at length

/-- Stored entries are read into a set one after the other, and what was read so far agrees with the
set that is kept under all keys that were come by. -/
theorem foldlM_readEntry (keeps : KeepsEntries utxos u)
    (formed : ∀ r entry, u.find? r = some entry → WellFormedId r.txId)
    {es : List (Bytes × Bytes)} (listed : ∀ e ∈ es, e ∈ utxos.toList) (w : UnspentSet) :
    ∃ w', es.foldlM readEntry w = .ok w'
      ∧ ∀ r, w'.find? r = u.find? r ∨ utxoKey r ∉ es.map Prod.fst ∧ w'.find? r = w.find? r := by
  induction es generalizing w with
  | nil => exact ⟨w, rfl, fun _ => .inr ⟨List.not_mem_nil, rfl⟩⟩
  | cons e rest ih =>
    obtain ⟨r, entry, found, rfl⟩ := keeps.mem_toList (listed e List.mem_cons_self)
    obtain ⟨w', later, agrees⟩ :=
      ih (fun e later => listed e (List.mem_cons_of_mem _ later)) (w.insert r entry)
    refine ⟨w', ?_, fun s => ?_⟩
    · rw [List.foldlM_cons, readEntry_stored (formed r entry found)]
      exact later
    · rcases agrees s with kept | ⟨absent, unchanged⟩
      · exact .inl kept
      · rw [SortedMap.find?_insert] at unchanged
        by_cases same : s = r
        · rw [if_pos same, ← found, ← same] at unchanged
          exact .inl unchanged
        · rw [if_neg same] at unchanged
          refine .inr ⟨?_, unchanged⟩
          rw [List.map_cons, List.mem_cons, utxoKey_inj]
          exact not_or_intro same absent

/-- The set can be read back, if the texts of its references can. -/
theorem snapshot {db : Database} (keeps : KeepsEntries db.utxos u)
    (formed : ∀ r entry, u.find? r = some entry → WellFormedId r.txId) :
    db.snapshot = .ok u := by
  obtain ⟨w, whole, agrees⟩ :=
    keeps.foldlM_readEntry formed (fun _ listed => listed) SortedMap.empty
  rw [Database.snapshot, whole]
  refine congrArg Except.ok (SortedMap.ext_find? fun r => ?_)
  rcases agrees r with kept | ⟨absent, nothing⟩
  · exact kept
  · cases found : u.find? r with
    | none => exact nothing
    | some entry => exact absurd (keeps.mem_keys found) absent

/-- Reading stops at the first entry whose reference cannot be told by its text. -/
theorem foldlM_readEntry_error (keeps : KeepsEntries utxos u) {es : List (Bytes × Bytes)}
    (listed : ∀ e ∈ es, e ∈ utxos.toList) {r : OutputRef} (malformed : ¬ WellFormedId r.txId)
    (member : utxoKey r ∈ es.map Prod.fst) (w : UnspentSet) :
    ∃ e, es.foldlM readEntry w = .error (.corrupt (.notReference e)) := by
  induction es generalizing w with
  | nil => cases member
  | cons first rest ih =>
    obtain ⟨s, entry, _, rfl⟩ := keeps.mem_toList (listed first List.mem_cons_self)
    rw [List.foldlM_cons]
    by_cases formed : WellFormedId s.txId
    · have other : utxoKey r ≠ utxoKey s := by
        rw [ne_eq, utxoKey_inj]
        rintro rfl
        exact malformed formed
      simp only [List.map_cons, List.mem_cons] at member
      rw [readEntry_stored formed]
      exact ih (fun e late => listed e (List.mem_cons_of_mem _ late)) (member.resolve_left other) _
    · obtain ⟨e, unread⟩ := readKey_utxoKey_error formed
      exact ⟨e, by simp only [readEntry, unread]; rfl⟩

theorem snapshot_error {db : Database} (keeps : KeepsEntries db.utxos u) {r : OutputRef}
    {entry : Utxo} (found : u.find? r = some entry) (malformed : ¬ WellFormedId r.txId) :
    ∃ e, db.snapshot = .error (.corrupt (.notReference e)) :=
  keeps.foldlM_readEntry_error (fun _ listed => listed) malformed (keeps.mem_keys found)
    SortedMap.empty

end KeepsEntries

/-! ## The whole -/

/-- A database with the entries of a set, with blocks, and with the height of the last of them. -/
structure Keeps (db : Database) (u : UnspentSet) (blocks : List Block) : Prop where
  entries : KeepsEntries db.utxos u
  inOrder : db.blocks.toList = blocks.map fun b => (blockKey b.height, b.bytes)
  head : db.info.find? headKey
    = (blocks.getLast?.map Block.height).map fun height => Word.littleEndian 8 height.toNat

namespace Keeps

variable {db : Database} {u : UnspentSet} {blocks : List Block}

theorem empty : Keeps Database.empty SortedMap.empty [] := ⟨.empty, rfl, rfl⟩

theorem head? (keeps : Keeps db u blocks) : db.head? = .ok (blocks.getLast?.map Block.height) := by
  rw [Database.head?, keeps.head]
  cases blocks.getLast?.map Block.height with
  | none => rfl
  | some height =>
    simp only [Option.map_some, readHead_littleEndian]
    rfl

/-- The heights of the blocks go up, as the keys of the map do. -/
theorem rising (keeps : Keeps db u blocks) : blocks.Pairwise fun a b => a.height < b.height := by
  have ascending := db.blocks.ascending
  rw [keeps.inOrder, List.pairwise_map] at ascending
  refine ascending.imp fun {a b} below => ?_
  rw [compare_blockKey, Nat.compare_eq_lt] at below
  exact UInt64.lt_iff_toNat_lt.2 below

/-- None of the blocks is above the last one. -/
theorem le_last (keeps : Keeps db u blocks) {head b : Block} (last : blocks.getLast? = some head)
    (member : b ∈ blocks) : b.height ≤ head.height := by
  obtain ⟨before, rfl⟩ := List.getLast?_eq_some_iff.1 last
  obtain ⟨-, -, below⟩ := List.pairwise_append.1 keeps.rising
  rcases List.mem_append.1 member with earlier | same
  · exact UInt64.le_of_lt (below b earlier head List.mem_cons_self)
  · rw [List.mem_singleton.1 same]
    exact UInt64.le_refl head.height

theorem blockCount (keeps : Keeps db u blocks) : db.blockCount = blocks.length := by
  rw [Database.blockCount, SortedMap.size, keeps.inOrder, List.length_map]

/-- What is read for the height of a block is what is read from its stored form. -/
theorem block? (keeps : Keeps db u blocks) {b : Block} (member : b ∈ blocks) :
    db.block? b.height = (readBlock b.bytes).map some := by
  have listed : (blockKey b.height, b.bytes) ∈ db.blocks.toList := by
    rw [keeps.inOrder]
    exact List.mem_map_of_mem member
  simp only [Database.block?, (SortedMap.find?_eq_some_iff _ _ _).2 listed]
  cases readBlock b.bytes <;> rfl

/-- For any height, what is read is the block of that height. -/
theorem block?_eq (keeps : Keeps db u blocks)
    (readable : ∀ b ∈ blocks, readBlock b.bytes = .ok b) (height : UInt64) :
    db.block? height = .ok (blocks.find? fun b => b.height = height) := by
  cases found : blocks.find? fun b => b.height = height with
  | some b =>
    have member := List.mem_of_find?_eq_some found
    have same := List.find?_some found
    obtain rfl : b.height = height := of_decide_eq_true same
    rw [keeps.block? member, readable b member]
    rfl
  | none =>
    have absent : db.blocks.find? (blockKey height) = none := by
      refine Option.eq_none_iff_forall_ne_some.2 fun bytes kept => ?_
      have listed := (SortedMap.find?_eq_some_iff _ _ _).1 kept
      rw [keeps.inOrder] at listed
      obtain ⟨b, member, same⟩ := List.mem_map.1 listed
      have heights := blockKey_inj.1 (Prod.mk.inj same).1
      exact List.find?_eq_none.1 found b member (decide_eq_true heights)
    simp only [Database.block?, absent]

/-- The blocks from a height on are read from the keys that do not come before that of the height. -/
theorem blocksFrom_eq (keeps : Keeps db u blocks) (height : UInt64) :
    db.blocksFrom height
      = (blocks.filter fun b => height ≤ b.height).mapM fun b => readBlock b.bytes := by
  have range : (db.blocks.toList.filter fun e => (compare e.1 (blockKey height)).isGE)
      = (blocks.filter fun b => height ≤ b.height).map fun b => (blockKey b.height, b.bytes) := by
    rw [keeps.inOrder, List.filter_map]
    refine congrArg _ (List.filter_congr fun b _ => ?_)
    rw [Bool.eq_iff_iff, decide_eq_true_iff, UInt64.le_iff_toNat_le, Function.comp_apply,
      compare_blockKey, Nat.isGE_compare]
  rw [Database.blocksFrom, range, List.mapM_map, Function.comp_def]

/-- Blocks can be read back in their order, if each of them can. -/
theorem mapM_readBlock (readable : ∀ b ∈ blocks, readBlock b.bytes = .ok b) :
    (blocks.mapM fun b => readBlock b.bytes) = .ok blocks := by
  induction blocks with
  | nil => rfl
  | cons b rest ih =>
    rw [List.mapM_cons, readable b List.mem_cons_self,
      ih fun later listed => readable later (List.mem_cons_of_mem _ listed)]
    rfl

theorem blocksFrom (keeps : Keeps db u blocks)
    (readable : ∀ b ∈ blocks, readBlock b.bytes = .ok b) (height : UInt64) :
    db.blocksFrom height = .ok (blocks.filter fun b => height ≤ b.height) := by
  rw [keeps.blocksFrom_eq]
  exact mapM_readBlock fun b member => readable b (List.mem_of_mem_filter member)

/-- All blocks are at or above the lowest height. -/
theorem filter_zero_le (blocks : List Block) :
    (blocks.filter fun b => (0 : UInt64) ≤ b.height) = blocks :=
  List.filter_eq_self.2 fun _ _ => decide_eq_true (UInt64.le_iff_toNat_le.2 (Nat.zero_le _))

theorem blocksFrom_zero_eq (keeps : Keeps db u blocks) :
    db.blocksFrom 0 = blocks.mapM fun b => readBlock b.bytes := by
  rw [keeps.blocksFrom_eq, filter_zero_le]

theorem blocksFrom_zero (keeps : Keeps db u blocks)
    (readable : ∀ b ∈ blocks, readBlock b.bytes = .ok b) : db.blocksFrom 0 = .ok blocks := by
  rw [keeps.blocksFrom readable, filter_zero_le]

/-- One malformed reference is enough that they cannot. -/
theorem blocksFrom_zero_iff (keeps : Keeps db u blocks)
    (fits : ∀ b ∈ blocks, b.bytes.length < UInt64.size) :
    (∃ read, db.blocksFrom 0 = .ok read) ↔ ∀ b ∈ blocks, ∀ tx ∈ b.txs, Wire.Codec.RefsFormed tx := by
  constructor
  · rw [keeps.blocksFrom_zero_eq]
    clear keeps
    induction blocks with
    | nil => exact fun _ => nofun
    | cons b rest ih =>
      rw [List.forall_mem_cons] at fits ⊢
      rintro ⟨read, whole⟩
      rw [List.mapM_cons] at whole
      by_cases formed : ∀ tx ∈ b.txs, Wire.Codec.RefsFormed tx
      · refine ⟨formed, ih fits.2 ?_⟩
        rw [readBlock_bytes formed fits.1] at whole
        cases later : rest.mapM fun b => readBlock b.bytes with
        | error e =>
          rw [later] at whole
          cases whole
        | ok read => exact ⟨read, rfl⟩
      · obtain ⟨e, unread⟩ := readBlock_bytes_error formed fits.1
        rw [unread] at whole
        cases whole
  · intro formed
    exact ⟨blocks, keeps.blocksFrom_zero fun b member =>
      readBlock_bytes (formed b member) (fits b member)⟩

/-- A block may be written on top of lower ones. -/
theorem checkHead (keeps : Keeps db u blocks) {b : Block}
    (above : ∀ other ∈ blocks, other.height < b.height) : db.checkHead b = .ok () := by
  rw [Database.checkHead, keeps.head?]
  cases last : blocks.getLast? with
  | none => rfl
  | some head =>
    have lower := above head (List.mem_of_getLast? last)
    rw [UInt64.lt_iff_toNat_lt] at lower
    exact if_neg fun notAbove => by
      rw [UInt64.le_iff_toNat_le] at notAbove
      omega

/-- A block above those that are kept is taken in with its changes. -/
theorem commitBlock (keeps : Keeps db u blocks) {b : Block}
    (above : ∀ other ∈ blocks, other.height < b.height) (changes : List Change) :
    ∃ db', Store.commitBlock db changes b = (.ok (), db')
      ∧ Keeps db' (changes.foldl UnspentSet.apply u) (blocks ++ [b]) := by
  let changed : Database := { db with utxos := changes.foldl Database.applyChange db.utxos }
  have checked : changed.checkHead b = .ok () := keeps.checkHead above
  refine ⟨{ changed with
      blocks := db.blocks.insert (blockKey b.height) b.bytes
      info := db.info.insert headKey (Word.littleEndian 8 b.height.toNat) }, ?_, ?_, ?_, ?_⟩
  · simp only [Store.commitBlock, transact, writeBlock, changed, checked]
  · exact keeps.entries.foldl_applyChange changes
  · have last : ∀ e ∈ db.blocks.toList, compare (blockKey b.height) e.1 = .gt := by
      intro e listed
      rw [keeps.inOrder] at listed
      obtain ⟨other, member, rfl⟩ := List.mem_map.1 listed
      rw [compare_blockKey, Nat.compare_eq_gt]
      exact UInt64.lt_iff_toNat_lt.1 (above other member)
    rw [SortedMap.toList_insert_of_above _ last, keeps.inOrder, List.map_append]
    rfl
  · rw [SortedMap.find?_insert, if_pos rfl, List.getLast?_concat]
    rfl

/-- Any other block is refused, and nothing is changed then. -/
theorem commitBlock_of_le (keeps : Keeps db u blocks) {head b : Block}
    (last : blocks.getLast? = some head) (notAbove : b.height ≤ head.height)
    (changes : List Change) :
    Store.commitBlock db changes b
      = (.error (.backend (.notAboveHead b.height head.height)), db) := by
  let changed : Database := { db with utxos := changes.foldl Database.applyChange db.utxos }
  have stored : changed.head? = .ok (some head.height) := by
    have same : changed.head? = db.head? := rfl
    rw [same, keeps.head?, last]
    rfl
  have refused : changed.checkHead b = .error (.backend (.notAboveHead b.height head.height)) := by
    rw [Database.checkHead, stored]
    exact if_pos notAbove
  simp only [Store.commitBlock, transact, writeBlock, changed, refused]

/-- What becomes of a block: it lies above the last one and is taken in with its changes, or it does
not and is refused. -/
theorem commitBlock_cases (keeps : Keeps db u blocks) (changes : List Change) (b : Block) :
    (∀ head, blocks.getLast? = some head → head.height < b.height)
        ∧ (∃ db', Store.commitBlock db changes b = (.ok (), db')
          ∧ Keeps db' (changes.foldl UnspentSet.apply u) (blocks ++ [b]))
      ∨ ∃ head, blocks.getLast? = some head ∧ b.height ≤ head.height
        ∧ Store.commitBlock db changes b
          = (.error (.backend (.notAboveHead b.height head.height)), db) := by
  by_cases above : ∀ head, blocks.getLast? = some head → head.height < b.height
  · refine .inl ⟨above, keeps.commitBlock (fun other member => ?_) changes⟩
    have last := List.getLast?_eq_some_getLast (List.ne_nil_of_mem member)
    exact UInt64.lt_of_le_of_lt (keeps.le_last last member) (above _ last)
  · simp only [not_forall] at above
    obtain ⟨head, last, notAbove⟩ := above
    have notAbove := UInt64.not_lt.1 notAbove
    exact .inr ⟨head, last, notAbove, keeps.commitBlock_of_le last notAbove changes⟩

end Keeps

end TokenLedger.Database
