import TokenLedger.Proofs.Chain.Restart
import TokenLedger.Proofs.Sync.Serving

/-!
The blocks of a chain from a height on. There are three ways to them: halving the list of the
blocks, going through the keys of the database from that of the height on, and picking and sorting
blocks for whoever asked. They come to the same range, whatever the height (`ranges_agree`).
Halving rests on the heights going up along the chain, and the keys on being in the order of the
heights.
-/

namespace TokenLedger

/-! ## The halving search -/

section TurningPoint

variable {α : Type} {test : α → Bool} {items : List α}

/-- As long as the place where the test turns is among those that are left, it is found. -/
theorem turningPoint_go_eq {k : Nat} (turns : ∀ i, (items[i]?).any test = true ↔ i < k)
    {fuel base size : Nat} (enough : size ≤ fuel) (lower : base ≤ k) (upper : k ≤ base + size) :
    turningPoint.go test items fuel base size = k := by
  -- Each halving keeps the place between the bounds and leaves fewer places, so the fuel lasts.
  induction fuel generalizing base size with
  | zero =>
    rw [turningPoint.go]
    omega
  | succ fuel ih =>
    rw [turningPoint.go]
    by_cases few : size ≤ 1
    · rw [if_pos few]
      by_cases before : base < k
      · rw [if_pos ((turns base).2 before)]
        omega
      · rw [if_neg fun passes => before ((turns base).1 passes)]
        omega
    · rw [if_neg few]
      dsimp only
      by_cases before : base + size / 2 < k
      · rw [if_pos ((turns _).2 before)]
        exact ih (by omega) (by omega) (by omega)
      · rw [if_neg fun passes => before ((turns _).1 passes)]
        exact ih (by omega) lower (by omega)

/-- If the test holds of the items before some place and of none after it, that place is found. -/
theorem turningPoint_append {front back : List α} (holds : ∀ a ∈ front, test a = true)
    (fails : ∀ a ∈ back, test a = false) : turningPoint test (front ++ back) = front.length := by
  refine turningPoint_go_eq (fun i => ?_) (Nat.le_refl _) (Nat.zero_le _) ?_
  · rw [Option.any_eq_true]
    constructor
    · rintro ⟨a, found, passes⟩
      by_cases inside : i < front.length
      · exact inside
      · rw [List.getElem?_append_right (Nat.le_of_not_lt inside)] at found
        rw [fails a (List.mem_of_getElem? found)] at passes
        cases passes
    · intro inside
      refine ⟨front[i], ?_, holds _ (List.getElem_mem inside)⟩
      rw [List.getElem?_append_left inside, List.getElem?_eq_getElem inside]
  · rw [List.length_append]
    omega

/-- A test that never holds again after it failed parts the items in two. -/
theorem exists_append_of_turns_once
    (turnsOnce : items.Pairwise fun a b => test b = true → test a = true) :
    ∃ front back, items = front ++ back ∧ (∀ a ∈ front, test a = true)
      ∧ ∀ a ∈ back, test a = false := by
  induction items with
  | nil => exact ⟨[], [], rfl, nofun, nofun⟩
  | cons first rest ih =>
    obtain ⟨before, later⟩ := List.pairwise_cons.1 turnsOnce
    by_cases passes : test first = true
    · obtain ⟨front, back, rfl, holds, fails⟩ := ih later
      exact ⟨first :: front, back, rfl, List.forall_mem_cons.2 ⟨passes, holds⟩, fails⟩
    · refine ⟨[], first :: rest, rfl, nofun, List.forall_mem_cons.2 ⟨?_, fun a member => ?_⟩⟩
      · exact Bool.eq_false_iff.2 passes
      · exact Bool.eq_false_iff.2 fun holds => passes (before a member holds)

/-- The items from where the test turns are those for which it fails. -/
theorem drop_turningPoint (turnsOnce : items.Pairwise fun a b => test b = true → test a = true) :
    items.drop (turningPoint test items) = items.filter fun a => !test a := by
  obtain ⟨front, back, rfl, holds, fails⟩ := exists_append_of_turns_once turnsOnce
  have none : (front.filter fun a => !test a) = [] :=
    List.filter_eq_nil_iff.2 fun a member => by simp [holds a member]
  have all : (back.filter fun a => !test a) = back :=
    List.filter_eq_self.2 fun a member => by simp [fails a member]
  rw [turningPoint_append holds fails, List.drop_left, List.filter_append, none, all,
    List.nil_append]

end TurningPoint

namespace Chain

/-- In a chain whose heights go up, the search finds the blocks at or above a height. -/
theorem blocksFrom_of_rising {σ : Type} {c : Chain σ}
    (rising : c.blocks.Pairwise fun a b => a.height < b.height) (height : UInt64) :
    c.blocksFrom height = c.blocks.filter fun b => height ≤ b.height := by
  rw [blocksFrom, drop_turningPoint]
  · refine List.filter_congr fun b _ => ?_
    rw [← decide_not]
    exact decide_eq_decide.2 UInt64.not_lt
  · refine rising.imp fun {a b} goesUp below => ?_
    exact decide_eq_true (UInt64.lt_trans goesUp (of_decide_eq_true below))

/-- Whatever blocks a chain in a database is given, and wherever it is closed and opened again,
there is one range of blocks from any height on: those at or above it that were derived, in the
order of their heights. The chain finds it by halving, the database by its keys, and it is what goes
out in answer to a request, whatever its number. The references that are spent have to be
well-formed to be told by their texts, and the blocks have to be of lengths that a word counts, as
bytes in memory are. -/
theorem ranges_agree (g : Genesis) (steps : List Step)
    (given : ∀ call ∈ Step.calls steps, ∀ raw ∈ call.source.txs, ∀ r ∈ raw.inputs,
      WellFormedId r.txId)
    (fits : ∀ b ∈ ((start g).run (Step.calls steps)).blocks, b.bytes.length < UInt64.size) :
    let answers := (start g).answers (Step.calls steps)
    ∃ kept, operate { genesis := g, store := Database.empty } steps = .ok (answers, kept)
      ∧ kept.blocks = derivedBlocks answers
      ∧ ∀ height nonce, let range := (derivedBlocks answers).filter fun b => height ≤ b.height
        range.Pairwise (fun a b => a.height < b.height)
          ∧ kept.blocksFrom height = range
          ∧ kept.store.blocksFrom height = .ok range
          ∧ Sync.serve ⟨height, nonce⟩ kept.blocks = ⟨range, nonce⟩ := by
  intro answers
  have derived : ((start g).run (Step.calls steps)).blocks = derivedBlocks answers :=
    (start g).blocks_run (Step.calls steps)
  have refs : ∀ b ∈ derivedBlocks answers, ∀ tx ∈ b.txs, Wire.Codec.RefsFormed tx :=
    derived ▸ refsFormed_run (start_sound g) nofun given
  have readable : ∀ b ∈ derivedBlocks answers, Database.readBlock b.bytes = .ok b :=
    fun b member => Database.readBlock_bytes (refs b member) (fits b (derived ▸ member))
  obtain ⟨kept, operated, mirrors⟩ :=
    (Mirrors.start g).operate (start_sound g) steps (derived ▸ readable)
  have keeps : kept.store.Keeps _ (derivedBlocks answers) := derived ▸ mirrors.keeps
  have same : kept.blocks = derivedBlocks answers := mirrors.blocks_eq.trans derived
  refine ⟨kept, operated, same, fun height nonce => ⟨keeps.rising.filter _, ?_, ?_, ?_⟩⟩
  · rw [← same]
    exact blocksFrom_of_rising (same ▸ keeps.rising) height
  · exact keeps.blocksFrom readable height
  · rw [same]
    exact Sync.serve_of_rising keeps.rising ⟨height, nonce⟩

/-- Below the first block, at the last one and far above it. -/
theorem ranges_agree_of_two_blocks :
    let issue : Call := .raw ⟨10, "a", "", [⟨"gen", [], [⟨2500, none⟩, ⟨7500, none⟩]⟩]⟩
    let spend : Call := .raw ⟨11, "b", "a", [⟨"next", [⟨"gen", 0⟩], [⟨2000, none⟩]⟩]⟩
    let steps : List Step := [.call issue, .reopen, .call spend, .call spend, .reopen]
    ∃ kept, (∃ answers, operate { genesis := ⟨"gen", 10⟩, store := Database.empty } steps
        = .ok (answers, kept))
      ∧ kept.blocks.map Block.height = [10, 11]
      ∧ kept.blocksFrom 0 = kept.blocks ∧ kept.store.blocksFrom 0 = .ok kept.blocks
      ∧ (kept.blocksFrom 11).map Block.height = [11]
      ∧ kept.store.blocksFrom 11 = .ok (kept.blocksFrom 11)
      ∧ Sync.serve ⟨11, -1⟩ kept.blocks = ⟨kept.blocksFrom 11, -1⟩
      ∧ kept.store.blocksFrom 18446744073709551615 = .ok [] := by
  intro issue spend steps
  obtain ⟨kept, operated, same, ranges⟩ :=
    ranges_agree ⟨"gen", 10⟩ steps (by decide) (by decide +kernel)
  obtain ⟨-, searched, scanned, -⟩ := ranges 0 0
  obtain ⟨-, atHead, scannedAtHead, served⟩ := ranges 11 (-1)
  obtain ⟨-, -, above, -⟩ := ranges 18446744073709551615 0
  refine ⟨kept, ⟨_, operated⟩, ?_⟩
  rw [same] at served
  rw [same, atHead]
  exact ⟨by decide +kernel, searched.trans (by decide +kernel),
    scanned.trans (by decide +kernel), by decide +kernel, scannedAtHead, served,
    above.trans (by decide +kernel)⟩

end Chain

end TokenLedger
