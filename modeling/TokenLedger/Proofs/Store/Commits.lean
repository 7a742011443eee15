import TokenLedger.Proofs.Store.Database

/-!
Blocks that are committed to a database one after the other, at any heights and with any changes.
A block is taken in just if it lies above the last one that was; otherwise nothing happens at all.
So what is kept at any point is told by the commits that were taken in up to there: their changes
made one after the other, their blocks in order, and the height of the last of them
(`commits_in_order`). The invariant behind this is `Keeps`, with what each commit adds to it.
-/

namespace TokenLedger.Database

/-- The changes of a block and the block, to be taken in as one. -/
structure Commit where
  changes : List Change
  block : Block

/-- What a database goes through. -/
inductive Step where
  | commit (made : Commit)
  /-- It is closed and opened again. -/
  | reopen

/-- Goes through steps. Of every commit it is noted how it was answered. There is nothing to a
database beside its maps, so it is opened as it was closed. -/
def operate (db : Database) : List Step → List (Commit × Except StoreError Unit) × Database
  | [] => ([], db)
  | .commit made :: rest =>
    let (answer, db) := Store.commitBlock db made.changes made.block
    let (log, db) := db.operate rest
    ((made, answer) :: log, db)
  | .reopen :: rest => db.operate rest

/-- The commits that were taken in. -/
def taken : List (Commit × Except StoreError Unit) → List Commit
  | [] => []
  | (made, .ok ()) :: rest => made :: taken rest
  | (_, .error _) :: rest => taken rest

/-- The unspent outputs that commits lead to from the beginning. -/
def unspentAfter (commits : List Commit) : UnspentSet :=
  (commits.flatMap Commit.changes).foldl UnspentSet.apply SortedMap.empty

theorem operate_commit {db next : Database} {made : Commit} {answer : Except StoreError Unit}
    (committed : Store.commitBlock db made.changes made.block = (answer, next)) (rest : List Step) :
    db.operate (.commit made :: rest)
      = ((made, answer) :: (next.operate rest).1, (next.operate rest).2) := by
  rw [operate, committed]

namespace Keeps

variable {db : Database} {u : UnspentSet} {blocks : List Block}

/-- A block is taken in just if there is none yet or it lies above the head. -/
theorem commitBlock_eq_ok_iff (keeps : Keeps db u blocks) (changes : List Change) (b : Block) :
    (Store.commitBlock db changes b).1 = .ok ()
      ↔ db.blockCount = 0 ∨ ∃ head, db.head? = .ok (some head) ∧ head < b.height := by
  rw [keeps.blockCount, keeps.head?]
  rcases keeps.commitBlock_cases changes b with
    ⟨above, next, committed, -⟩ | ⟨head, last, notAbove, refused⟩
  · refine iff_of_true (congrArg Prod.fst committed) ?_
    cases last : blocks.getLast? with
    | none => exact .inl (List.length_eq_zero_iff.2 (List.getLast?_eq_none_iff.1 last))
    | some head => exact .inr ⟨head.height, rfl, above head last⟩
  · rw [refused, last]
    refine iff_of_false nofun ?_
    rintro (nothing | ⟨other, same, above⟩)
    · rw [List.length_eq_zero_iff.1 nothing] at last
      cases last
    · obtain rfl := Option.some.inj (Except.ok.inj same)
      exact UInt64.not_lt.2 notAbove above

theorem commitBlock_refused (keeps : Keeps db u blocks) {changes : List Change} {b : Block}
    (refused : (Store.commitBlock db changes b).1 ≠ .ok ()) :
    (Store.commitBlock db changes b).2 = db := by
  rcases keeps.commitBlock_cases changes b with ⟨-, next, committed, -⟩ | ⟨head, -, -, unchanged⟩
  · exact absurd (congrArg Prod.fst committed) refused
  · exact congrArg Prod.snd unchanged

/-- The head is that of a block, and no block lies above it. -/
theorem le_head (keeps : Keeps db u blocks) {b : Block} (member : b ∈ blocks) :
    ∃ head, db.head? = .ok (some head) ∧ b.height ≤ head := by
  have last := List.getLast?_eq_some_getLast (List.ne_nil_of_mem member)
  refine ⟨_, ?_, keeps.le_last last member⟩
  rw [keeps.head?, last]
  rfl

/-- Where a set and blocks are kept, steps add what they take in. -/
theorem operate (keeps : Keeps db u blocks) (steps : List Step) :
    let commits := taken (db.operate steps).1
    Keeps (db.operate steps).2 ((commits.flatMap Commit.changes).foldl UnspentSet.apply u)
      (blocks ++ commits.map Commit.block) := by
  -- What is kept at first varies, since each commit that is taken in adds to it.
  induction steps generalizing db u blocks with
  | nil =>
    show Keeps db u (blocks ++ [])
    rw [List.append_nil]
    exact keeps
  | cons step rest ih =>
    cases step with
    | commit made =>
      rcases keeps.commitBlock_cases made.changes made.block with
        ⟨-, next, committed, later⟩ | ⟨head, -, -, refused⟩
      · rw [operate_commit committed]
        dsimp only [taken]
        rw [List.flatMap_cons, List.foldl_append, List.map_cons, List.append_cons]
        exact ih later
      · rw [operate_commit refused]
        exact ih keeps
    | reopen => exact ih keeps

end Keeps

theorem keeps_operate (steps : List Step) :
    let commits := taken (operate empty steps).1
    Keeps (operate empty steps).2 (unspentAfter commits) (commits.map Commit.block) :=
  Keeps.empty.operate steps

/-- After any steps from the beginning: a further block is taken in just if there is none yet or it
lies above the head, and otherwise nothing changes. The head is that of the last block that was
taken in, and none of them is higher. There are as many blocks as were taken in, their heights go
up, and the unspent outputs are those that their changes lead to. If all references in them are
well-formed, each height has the block that was taken in at it, if any, and from any height on the
blocks are those at or above it, in order. Stored blocks have to be of lengths that a word counts,
as bytes in memory are. -/
theorem commits_in_order (steps : List Step) :
    let db := (operate empty steps).2
    let commits := taken (operate empty steps).1
    let blocks := commits.map Commit.block
    (∀ changes b, ((Store.commitBlock db changes b).1 = .ok ()
          ↔ db.blockCount = 0 ∨ ∃ head, db.head? = .ok (some head) ∧ head < b.height)
        ∧ ((Store.commitBlock db changes b).1 ≠ .ok () → (Store.commitBlock db changes b).2 = db))
      ∧ db.head? = .ok (blocks.getLast?.map Block.height)
      ∧ (∀ b ∈ blocks, ∃ head, db.head? = .ok (some head) ∧ b.height ≤ head)
      ∧ db.blockCount = commits.length
      ∧ blocks.Pairwise (fun a b => a.height < b.height)
      ∧ Holds db (unspentAfter commits) ∧ db.size = (unspentAfter commits).size
      ∧ ((∀ b ∈ blocks, (∀ tx ∈ b.txs, Wire.Codec.RefsFormed tx) ∧ b.bytes.length < UInt64.size) →
        ∀ height, db.block? height = .ok (blocks.find? fun b => b.height = height)
          ∧ db.blocksFrom height = .ok (blocks.filter fun b => height ≤ b.height)) := by
  intro db commits blocks
  have keeps : Keeps db (unspentAfter commits) blocks := keeps_operate steps
  refine ⟨fun changes b => ⟨keeps.commitBlock_eq_ok_iff changes b, keeps.commitBlock_refused⟩,
    keeps.head?, fun b => keeps.le_head, ?_, keeps.rising, keeps.entries.holds, keeps.entries.size_eq,
    ?_⟩
  · rw [keeps.blockCount, List.length_map]
  · intro given height
    have readable : ∀ b ∈ blocks, readBlock b.bytes = .ok b := fun b member =>
      readBlock_bytes (given b member).1 (given b member).2
    exact ⟨keeps.block?_eq readable height, keeps.blocksFrom readable height⟩

/-- A block lies above the first with a gap between them; in between, one that does not is refused
together with its change. The heights are in the order of their numbers, which is not that of
their lowest bytes. -/
theorem commits_in_order_over_gap :
    let b (height : UInt64) : Block :=
      ⟨height, "", "", [⟨"t", height, [⟨⟨"gen", 0⟩, none⟩], [], .vote, 0⟩]⟩
    let r : OutputRef := ⟨"gen", 0⟩
    let steps : List Step := [.commit ⟨[(r, some ⟨7, 256, .token⟩)], b 256⟩, .reopen,
      .commit ⟨[(r, none)], b 255⟩, .commit ⟨[], b 65537⟩]
    let db := (operate empty steps).2
    db.head? = .ok (some 65537) ∧ db.blockCount = 2
      ∧ Store.find? db r = .ok (some ⟨7, 256, .token⟩)
      ∧ db.block? 255 = .ok none ∧ db.blocksFrom 255 = .ok [b 256, b 65537]
      ∧ db.blocksFrom 257 = .ok [b 65537] := by
  intro b r steps db
  obtain ⟨-, head, -, count, -, unspent, -, read⟩ := commits_in_order steps
  have read := read (by decide +kernel)
  exact ⟨head.trans (by decide +kernel), count.trans (by decide +kernel),
    (unspent r).trans (by decide +kernel), (read 255).1.trans (by decide +kernel),
    (read 255).2.trans (by decide +kernel), (read 257).2.trans (by decide +kernel)⟩

end TokenLedger.Database
