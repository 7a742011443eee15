import TokenLedger.Proofs.Chain.Growth
import TokenLedger.Proofs.Store.Database

/-!
Chains that are kept in a database. Such a chain answers every call as the same chain in memory does,
and what it keeps is what that one holds (`Mirrors.call`). To close it and open it again changes
nothing (`Mirrors.resume`). So nobody can tell, at whatever points that was done, a chain in a
database from one that was never interrupted (`restarts_go_unnoticed`).
-/

namespace TokenLedger

namespace Chain

/-! ## Chains in a database -/

variable {c : Chain UnspentSet}

/-- A chain in a database that keeps what a chain in memory holds. -/
structure Mirrors (kept : Chain Database) (c : Chain UnspentSet) : Prop where
  genesis_eq : kept.genesis = c.genesis
  blocks_eq : kept.blocks = c.blocks
  keeps : kept.store.Keeps c.store c.blocks

namespace Mirrors

variable {kept : Chain Database}

theorem start (g : Genesis) : Mirrors { genesis := g, store := Database.empty } (start g) :=
  ⟨rfl, rfl, .empty⟩

theorem agrees (mirrors : kept.Mirrors c) : kept.Agrees c :=
  ⟨mirrors.genesis_eq, mirrors.blocks_eq, mirrors.keeps.entries.holds⟩

/-- A staged block is taken in. -/
theorem commit (mirrors : kept.Mirrors c) (sound : c.Sound) {raw : RawBlock} {b : Block}
    {changes : List Change} (stages : c.Stages raw b changes) :
    (kept.commit b changes).1 = (c.commit b changes).1
      ∧ (kept.commit b changes).2.Mirrors (c.commit b changes).2 := by
  have above : ∀ other ∈ c.blocks, other.height < b.height := by
    intro other member
    obtain ⟨i, found⟩ := List.mem_iff_getElem?.1 member
    have place := sound.heights i other found
    have inside := (List.getElem?_eq_some_iff.1 found).1
    obtain ⟨after, _, grows, _⟩ := stages.grows sound.bears
    have next := sound.nextHeight (checkContinuity_eq_ok_iff.1 stages.goesOn).1
    rw [UInt64.lt_iff_toNat_lt, grows.header.1]
    omega
  obtain ⟨db, taken, keeps⟩ := mirrors.keeps.commitBlock above changes
  simp only [Chain.commit, taken, UnspentSet.commitBlock_eq]
  exact ⟨trivial, mirrors.genesis_eq, by rw [mirrors.blocks_eq], keeps⟩

/-- A call is answered alike, and afterwards the one still keeps what the other holds. -/
theorem call (mirrors : kept.Mirrors c) (sound : c.Sound) (call : Call) :
    (kept.call call).1 = (c.call call).1 ∧ (kept.call call).2.Mirrors (c.call call).2 := by
  rcases mirrors.agrees.call call with
    ⟨b, changes, stages, _, committed, committed'⟩ | ⟨answer, answered, answered', _⟩
  · rw [committed, committed']
    exact mirrors.commit sound stages
  · rw [answered, answered']
    exact ⟨rfl, mirrors⟩

/-- What was kept comes back as it was. -/
theorem resume (mirrors : kept.Mirrors c)
    (readable : ∀ b ∈ c.blocks, Database.readBlock b.bytes = .ok b) :
    resume kept.genesis kept.store = .ok kept := by
  rw [Chain.resume, mirrors.keeps.blocksFrom_zero readable, ← mirrors.blocks_eq]
  rfl

end Mirrors

/-! ## Restarts -/

/-- What a chain that is kept in a database goes through. -/
inductive Step where
  | call (call : Call)
  /-- It is closed and opened again. -/
  | reopen

/-- The calls among the steps. -/
def Step.calls : List Step → List Call
  | [] => []
  | .call made :: rest => made :: calls rest
  | .reopen :: rest => calls rest

/-- Goes through steps; the answers are those to the calls. -/
def operate (kept : Chain Database) :
    List Step → Except StoreError (List (Except (Stop Rejection) (Option Block)) × Chain Database)
  | [] => .ok ([], kept)
  | .call call :: rest => do
    let (answers, last) ← (kept.call call).2.operate rest
    return ((kept.call call).1 :: answers, last)
  | .reopen :: rest => do
    let kept ← resume kept.genesis kept.store
    kept.operate rest

/-- Opening again is never noticed, as long as the blocks can be read. -/
theorem Mirrors.operate {kept : Chain Database} (mirrors : kept.Mirrors c) (sound : c.Sound)
    (steps : List Step)
    (readable : ∀ b ∈ (c.run (Step.calls steps)).blocks, Database.readBlock b.bytes = .ok b) :
    ∃ last, kept.operate steps = .ok (c.answers (Step.calls steps), last)
      ∧ last.Mirrors (c.run (Step.calls steps)) := by
  induction steps generalizing kept c with
  | nil => exact ⟨kept, rfl, mirrors⟩
  | cons step rest ih =>
    cases step with
    | call call =>
      obtain ⟨answer, next⟩ := mirrors.call sound call
      obtain ⟨last, later, lastMirrors⟩ := ih next (sound.call call) readable
      refine ⟨last, ?_, lastMirrors⟩
      rw [Chain.operate, later, answer]
      rfl
    | reopen =>
      have lasting := c.blocks_prefix_run (Step.calls rest)
      have reopened := mirrors.resume fun b member => readable b (lasting.subset member)
      obtain ⟨last, later, lastMirrors⟩ := ih mirrors sound readable
      refine ⟨last, ?_, lastMirrors⟩
      rw [Chain.operate, reopened]
      exact later

/-- At whatever points a chain in a database is closed and opened again, it answers its calls as a
chain in memory does that is never interrupted. Nothing is refused by the database, and the ledger,
the blocks and the head that can be read from it are those of that chain. The references that are
spent have to be well-formed to be told by their texts, and the blocks have to be of lengths that a
word counts, as bytes in memory are. -/
theorem restarts_go_unnoticed (g : Genesis) (steps : List Step)
    (given : ∀ call ∈ Step.calls steps, ∀ raw ∈ call.source.txs, ∀ r ∈ raw.inputs,
      WellFormedId r.txId)
    (fits : ∀ b ∈ ((start g).run (Step.calls steps)).blocks, b.bytes.length < UInt64.size) :
    let c := (start g).run (Step.calls steps)
    let answers := (start g).answers (Step.calls steps)
    ∃ kept, operate { genesis := g, store := Database.empty } steps = .ok (answers, kept)
      ∧ (∀ e, .error (.refused (.store e)) ∉ answers)
      ∧ kept.store.snapshot = .ok c.store
      ∧ kept.blocks = c.blocks ∧ kept.store.blocksFrom 0 = .ok c.blocks
      ∧ kept.store.head? = .ok kept.headHeight? := by
  intro c answers
  have sound : c.Sound := run_sound g (Step.calls steps)
  have refs : ∀ b ∈ c.blocks, ∀ tx ∈ b.txs, Wire.Codec.RefsFormed tx :=
    refsFormed_run (start_sound g) nofun given
  have readable : ∀ b ∈ c.blocks, Database.readBlock b.bytes = .ok b := fun b member =>
    Database.readBlock_bytes (refs b member) (fits b member)
  obtain ⟨kept, operated, mirrors⟩ := (Mirrors.start g).operate (start_sound g) steps readable
  refine ⟨kept, operated, answers_ne_store (start_sound g) (Step.calls steps), ?_,
    mirrors.blocks_eq, mirrors.keeps.blocksFrom_zero readable, ?_⟩
  · refine mirrors.keeps.entries.snapshot fun r entry found => ?_
    obtain ⟨b, member, tx, recorded, same⟩ := sound.known r entry found
    rw [← same]
    exact idsFormed_run g (Step.calls steps) b member tx recorded
  · rw [mirrors.keeps.head?, headHeight?, head?, mirrors.blocks_eq]

/-- Opened before there is anything, between the blocks, and after one was offered again. -/
theorem restart_between_blocks_goes_unnoticed :
    let issue : Call := .raw ⟨10, "a", "", [⟨"gen", [], [⟨2500, none⟩, ⟨7500, none⟩]⟩]⟩
    let spend : Call := .raw ⟨11, "b", "a", [⟨"other", [⟨"unknown", 0⟩], [⟨1, none⟩]⟩,
      ⟨"next", [⟨"gen", 0⟩], [⟨2000, none⟩]⟩]⟩
    let steps : List Step :=
      [.reopen, .call issue, .reopen, .call spend, .call spend, .reopen]
    let c := (start ⟨"gen", 10⟩).run [issue, spend, spend]
    ∃ kept, operate { genesis := ⟨"gen", 10⟩, store := Database.empty } steps
        = .ok ((start ⟨"gen", 10⟩).answers [issue, spend, spend], kept)
      ∧ kept.store.snapshot = .ok c.store ∧ kept.blocks = c.blocks
      ∧ kept.store.head? = .ok (some 11) := by
  intro issue spend steps c
  obtain ⟨kept, operated, _, unspent, blocks, _, head⟩ :=
    restarts_go_unnoticed ⟨"gen", 10⟩ steps (by decide) (by decide +kernel)
  have height : kept.headHeight? = some 11 := by
    rw [headHeight?, head?, blocks]
    rfl
  exact ⟨kept, operated, unspent, blocks, height ▸ head⟩

end Chain

end TokenLedger
