import TokenLedger.Proofs.Chain.Restart

/-!
Which chains in a database can be opened again. Before a block is taken in, the ids of its transactions
are looked at, but not the ids in the references that they spend. A record with a malformed one is
written with its block and never read again. So the blocks that can be read back are exactly those
whose references are all well-formed (`readable_iff_refs_formed`).
-/

namespace TokenLedger.Chain

/-- The chain in a database that nothing was written to. -/
def startKept (g : Genesis) : Chain Database := { genesis := g, store := Database.empty }

/-- A chain can be opened again if its blocks can be read. -/
theorem resume_eq_ok_iff {g : Genesis} {db : Database} :
    (∃ again, resume g db = .ok again) ↔ ∃ blocks, db.blocksFrom 0 = .ok blocks := by
  unfold resume
  cases db.blocksFrom 0 with
  | error e =>
    constructor
    · rintro ⟨_, resumed⟩
      cases resumed
    · rintro ⟨_, read⟩
      cases read
  | ok blocks => exact ⟨fun _ => ⟨blocks, rfl⟩, fun _ => ⟨_, rfl⟩⟩

theorem Mirrors.run {kept : Chain Database} {c : Chain UnspentSet} (mirrors : kept.Mirrors c)
    (sound : c.Sound) (calls : List Call) : (kept.run calls).Mirrors (c.run calls) := by
  induction calls generalizing kept c with
  | nil => exact mirrors
  | cons call rest ih => exact ih (mirrors.call sound call).2 (sound.call call)

/-- A block that a chain in a database takes in is taken in by the same chain in memory. -/
theorem mirrors_of_applyRaw (g : Genesis) (calls : List Call) {raw : RawBlock} {b : Block}
    {after : Chain Database}
    (taken : ((startKept g).run calls).applyRaw raw = (.ok (some b), after)) :
    ∃ c, ((start g).run calls).applyRaw raw = (.ok (some b), c) ∧ after.Mirrors c := by
  have mirrors : ((startKept g).run calls).Mirrors ((start g).run calls) :=
    (Mirrors.start g).run (start_sound g) calls
  obtain ⟨answer, next⟩ := mirrors.call (run_sound g calls) (.raw raw)
  have kept : ((startKept g).run calls).call (.raw raw) = (.ok (some b), after) := taken
  rw [kept] at answer next
  exact ⟨_, Prod.ext answer.symm rfl, next⟩

/-- For every block that a chain in a database takes in, whatever calls came before: just if all
references in it are well-formed it reads back as it is. Just if this is so of all blocks that were
taken in, they can be read together and the chain can be opened again; and then it is the same. That
is so as long as the blocks that are offered have well-formed references only. The stored blocks have
to be of lengths that a word counts, as bytes in memory are. -/
theorem readable_iff_refs_formed (g : Genesis) (calls : List Call) (raw : RawBlock) {b : Block}
    {after : Chain Database}
    (taken : ((startKept g).run calls).applyRaw raw = (.ok (some b), after))
    (fits : ∀ other ∈ after.blocks, other.bytes.length < UInt64.size) :
    let db := after.store
    let formed := ∀ other ∈ after.blocks, ∀ tx ∈ other.txs, Wire.Codec.RefsFormed tx
    (db.block? b.height = .ok (some b) ↔ ∀ tx ∈ b.txs, Wire.Codec.RefsFormed tx)
      ∧ ((∃ blocks, db.blocksFrom 0 = .ok blocks) ↔ formed)
      ∧ ((∃ again, resume g db = .ok again) ↔ formed)
      ∧ (formed → db.blocksFrom 0 = .ok after.blocks ∧ resume g db = .ok after)
      ∧ ((∀ call ∈ calls ++ [.raw raw], ∀ tx ∈ call.source.txs, ∀ r ∈ tx.inputs,
          WellFormedId r.txId) → formed) := by
  obtain ⟨c, inMemory, mirrors⟩ := mirrors_of_applyRaw g calls taken
  have run : (start g).run (calls ++ [.raw raw]) = c := by
    rw [run_append]
    exact congrArg Prod.snd inMemory
  have genesis_eq : c.genesis = g := run ▸ genesis_run g _
  have member : b ∈ c.blocks := by
    have grows := (run_sound g calls).grows_of_applyRaw inMemory
    rw [grows.blocks_eq]
    exact List.mem_append_right _ List.mem_cons_self
  have keeps := mirrors.keeps
  rw [mirrors.blocks_eq] at fits
  simp only [mirrors.blocks_eq]
  refine ⟨?_, keeps.blocksFrom_zero_iff fits, ?_, ?_, ?_⟩
  · rw [keeps.block? member, ← Database.readBlock_bytes_iff (fits b member)]
    cases Database.readBlock b.bytes with
    | error e => exact ⟨nofun, nofun⟩
    | ok read => simp [Except.map]
  · rw [resume_eq_ok_iff]
    exact keeps.blocksFrom_zero_iff fits
  · intro formed
    have readable : ∀ other ∈ c.blocks, Database.readBlock other.bytes = .ok other :=
      fun other member => Database.readBlock_bytes (formed other member) (fits other member)
    have resumed := mirrors.resume readable
    rw [mirrors.genesis_eq, genesis_eq] at resumed
    exact ⟨keeps.blocksFrom_zero readable, resumed⟩
  · intro given
    rw [← run]
    exact refsFormed_run (start_sound g) nofun given

/-- A reference in the block is unknown, but all of them are well-formed. -/
theorem readable_with_unknown_reference :
    let issue : RawBlock := ⟨10, "a", "", [⟨"gen", [⟨"coinbase", 0⟩], [⟨2500, none⟩]⟩]⟩
    let spend : RawBlock := ⟨11, "b", "a", [⟨"next", [⟨"gen", 0⟩, ⟨"unknown", 7⟩],
      [⟨2000, none⟩]⟩]⟩
    let b : Block := ⟨11, "b", "a", [⟨"next", 11, [⟨⟨"gen", 0⟩, some 2500⟩, ⟨⟨"unknown", 7⟩, none⟩],
      [⟨0, 2000, none, 2000, .token⟩], .feePayment, 500⟩]⟩
    ∃ after, ((startKept ⟨"gen", 10⟩).run [.raw issue]).applyRaw spend = (.ok (some b), after)
      ∧ after.store.block? 11 = .ok (some b) ∧ resume ⟨"gen", 10⟩ after.store = .ok after := by
  intro issue spend b
  let c := (startKept ⟨"gen", 10⟩).run [.raw issue]
  have taken : c.applyRaw spend = (.ok (some b), (c.applyRaw spend).2) :=
    Prod.ext (by decide +kernel) rfl
  obtain ⟨stored, _, _, reopened, given⟩ :=
    readable_iff_refs_formed ⟨"gen", 10⟩ [.raw issue] spend taken (by decide +kernel)
  have formed := given (by decide)
  exact ⟨_, taken, stored.2 (by decide), (reopened formed).2⟩

/-- The issue is taken in although its input names no transaction. Then the block cannot be read, and
the chain cannot be opened again. -/
theorem taken_in_and_never_read_again :
    let issue : RawBlock := ⟨10, "h10", "h9", [⟨"gen", [⟨"", 4294967295⟩], [⟨2500, none⟩]⟩]⟩
    let b : Block := ⟨10, "h10", "h9", [⟨"gen", 10, [⟨⟨"", 4294967295⟩, none⟩],
      [⟨0, 2500, none, 2500, .token⟩], .genesis, 0⟩]⟩
    let unread : StoreError :=
      .corrupt (.undecodable (.codec (.notReference (.emptyTxId ":4294967295"))))
    ∃ after, (startKept ⟨"gen", 10⟩).applyRaw issue = (.ok (some b), after)
      ∧ after.store.block? 10 = .error unread ∧ after.store.blocksFrom 0 = .error unread
      ∧ resume ⟨"gen", 10⟩ after.store = .error unread := by
  intro issue b unread
  let after := ((startKept ⟨"gen", 10⟩).applyRaw issue).2
  have taken : (startKept ⟨"gen", 10⟩).applyRaw issue = (.ok (some b), after) :=
    Prod.ext (by decide +kernel) rfl
  have all : after.store.blocksFrom 0 = .error unread := by decide +kernel
  refine ⟨after, taken, by decide +kernel, all, ?_⟩
  rw [resume, all]
  rfl

end TokenLedger.Chain
