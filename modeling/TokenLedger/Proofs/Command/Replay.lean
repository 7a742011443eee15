import TokenLedger.Command.Run
import TokenLedger.Proofs.Chain.Readable
import TokenLedger.Proofs.Chain.Replay
import TokenLedger.Proofs.Json.Loaded

/-!
Replays of files into a ledger that is kept between them. Each opens the ledger again and goes through a
file from its beginning. Wherever the one before was cut off, be it at the end of a shorter file or at a
block that is refused, the ledger and the result come out as if it had not been there; and to replay a
file once more changes nothing (`replay_cut_anywhere`).
-/

namespace TokenLedger

/-- Whether every stored block is so short that a word counts its bytes, as bytes in memory are. -/
def Database.Fits (db : Database) : Prop := ∀ e ∈ db.blocks.toList, e.2.length < UInt64.size

instance (db : Database) : Decidable db.Fits :=
  inferInstanceAs (Decidable (∀ e ∈ db.blocks.toList, e.2.length < UInt64.size))

namespace Host

/-! ## Replays in memory -/

/-- A machine whose only ledger is the state, and which shows nothing. -/
def inMemory (files : String → Option String) : Host (StateM Database) where
  environment _ := none
  fileText? path := pure (files path)
  openLedger _ := do return .ok (← get)
  saveLedger _ db := set db
  print _ := pure ()
  complain _ := pure ()
  ask _ _ := pure (.error (.http "no connection"))
  wait _ := pure ()

/-- How a replay of a file ends, and the ledger that it leaves. -/
def replayed (files : String → Option String) (config : Config) (path : String) (db : Database) :
    Except Failure Unit × Database :=
  ((inMemory files).replay config path).run.run db

/-- Whether a file holds a list of blocks. -/
def Loads (files : String → Option String) (path : String) (blocks : List RawBlock) : Prop :=
  ∃ text, files path = some text ∧ Json.Form.rawBlocks.ofText text = .ok blocks

/-- The ids in a list that was loaded can all be parts of references. -/
theorem Loads.formed {files : String → Option String} {path : String} {blocks : List RawBlock}
    (loads : Loads files path blocks) : ∀ b ∈ blocks, b.Formed := by
  obtain ⟨text, _, loaded⟩ := loads
  exact Json.Form.formed_of_ofText loaded

/-- The ledgers that replays of any files leave, beginning with one that nothing was written to. -/
inductive LeftByReplays (config : Config) : Database → Prop where
  | empty : LeftByReplays config Database.empty
  | replay {db : Database} (before : LeftByReplays config db) (files : String → Option String)
      (path : String) (fits : (replayed files config path db).2.Fits) :
      LeftByReplays config (replayed files config path db).2

/-- How a command ends whose replay has ended, and the ledger that it leaves. -/
def verdict : Option (RawBlock × Stop Rejection) × Chain Database → Except Failure Unit × Database
  | (some (_, stop), c) => (.error (Failure.ofStop .rejected stop), c.store)
  | (none, c) =>
    match c.stats with
    | .error o => (.error (.halted o), c.store)
    | .ok _ => (.ok (), c.store)

section

variable {α β : Type} {x : ExceptT Failure (StateM Database) α} {db next : Database}

/-- A step that succeeds hands its result and the ledger on. -/
theorem run_bind_ok {a : α} (done : x.run.run db = (.ok a, next))
    (f : α → ExceptT Failure (StateM Database) β) : (x >>= f).run.run db = (f a).run.run next := by
  rw [ExceptT.run_bind, StateT.run_bind, done]
  rfl

/-- After a step that fails, nothing is done. -/
theorem run_bind_error {e : Failure} (failed : x.run.run db = (.error e, next))
    (f : α → ExceptT Failure (StateM Database) β) : (x >>= f).run.run db = (.error e, next) := by
  rw [ExceptT.run_bind, StateT.run_bind, failed]
  rfl

end

/-- A replay of a file is a replay of its blocks on the chain that the database opens with. -/
theorem replayed_eq {files : String → Option String} {config : Config} {path : String}
    {db : Database} {blocks : List RawBlock} {kept : Chain Database}
    (loads : Loads files path blocks) (resumed : Chain.resume config.genesis db = .ok kept) :
    replayed files config path db = verdict (Chain.ending (kept.replay blocks)) := by
  obtain ⟨text, found, loaded⟩ := loads
  have required : ((inMemory files).require path).run.run db = (.ok text, db) := by
    simp only [require, inMemory, found]
    rfl
  have opened : ((inMemory files).openChain config).run.run db = (.ok kept, db) := by
    show ((orFail Failure.store (Chain.resume config.genesis db) :
      ExceptT Failure (StateM Database) _)).run.run db = _
    rw [resumed]
    rfl
  unfold replayed Host.replay
  rw [run_bind_ok required, loaded, orFail, pure_bind, run_bind_ok opened]
  cases kept.replay blocks with
  | mk answer last =>
    cases answer with
    | error stop => rfl
    | ok applied =>
      simp only [Chain.ending, verdict]
      cases last.stats <;> rfl

/-- A file that does not hold blocks leaves the ledger as it is. -/
theorem replayed_of_not_loads {files : String → Option String} {path : String}
    (unread : ∀ blocks, ¬ Loads files path blocks) (config : Config) (db : Database) :
    (replayed files config path db).2 = db := by
  unfold replayed Host.replay
  cases found : files path with
  | none =>
    have missing : ((inMemory files).require path).run.run db = (.error .unreadable, db) := by
      simp only [require, inMemory, found]
      rfl
    rw [run_bind_error missing]
  | some text =>
    have required : ((inMemory files).require path).run.run db = (.ok text, db) := by
      simp only [require, inMemory, found]
      rfl
    cases loaded : Json.Form.rawBlocks.ofText text with
    | error e =>
      have refused : (orFail .badJson (.error e) :
          ExceptT Failure (StateM Database) (List RawBlock)).run.run db
            = (.error (.badJson e), db) := rfl
      rw [run_bind_ok required, loaded, run_bind_error refused]
    | ok blocks => exact absurd ⟨text, found, loaded⟩ (unread blocks)

theorem verdict_snd (ended : Except (RawBlock × Stop Rejection) Nat × Chain Database) :
    (verdict (Chain.ending ended)).2 = ended.2.store := by
  obtain ⟨answer, c⟩ := ended
  cases answer with
  | error stop => rfl
  | ok applied =>
    simp only [Chain.ending, verdict]
    cases c.stats <;> rfl

end Host

/-! ## Chains that can be opened again -/

namespace Chain

/-- A chain in a database that mirrors one in memory whose records name well-formed ids. -/
structure Sustains (kept : Chain Database) (c : Chain UnspentSet) : Prop where
  mirrors : kept.Mirrors c
  sound : c.Sound
  refs : ∀ b ∈ c.blocks, ∀ tx ∈ b.txs, Wire.Codec.RefsFormed tx

namespace Sustains

variable {kept : Chain Database} {c : Chain UnspentSet}

theorem start (g : Genesis) : (startKept g).Sustains (start g) :=
  ⟨.start g, start_sound g, nofun⟩

theorem fits_iff (sustains : kept.Sustains c) :
    kept.store.Fits ↔ ∀ b ∈ kept.blocks, b.bytes.length < UInt64.size := by
  rw [Database.Fits, sustains.mirrors.keeps.inOrder, List.forall_mem_map,
    sustains.mirrors.blocks_eq]

theorem resume (sustains : kept.Sustains c) (fits : kept.store.Fits) :
    Chain.resume kept.genesis kept.store = .ok kept := by
  refine sustains.mirrors.resume fun b member => ?_
  rw [sustains.fits_iff, sustains.mirrors.blocks_eq] at fits
  exact Database.readBlock_bytes (sustains.refs b member) (fits b member)

theorem replay (sustains : kept.Sustains c) {blocks : List RawBlock}
    (formed : ∀ b ∈ blocks, b.Formed) : ∃ c', (kept.replay blocks).2.Sustains c' := by
  obtain ⟨calls, given, same⟩ := exists_run_of_replayFrom 0 blocks kept
  have sound : (c.run calls).Sound :=
    run_induction (fun _ call sound => sound.call call) sustains.sound calls
  have refs := refsFormed_run sustains.sound sustains.refs fun call member raw listed =>
    (formed call.source (given call member) raw listed).2
  refine ⟨c.run calls, ?_, sound, refs⟩
  show (replayFrom 0 blocks kept).2.Mirrors (c.run calls)
  rw [same]
  exact sustains.mirrors.run sustains.sound calls

end Sustains

theorem genesis_replay (kept : Chain Database) (blocks : List RawBlock) :
    (kept.replay blocks).2.genesis = kept.genesis := by
  have settles := settles_replayFrom 0 blocks kept
  show (replayFrom 0 blocks kept).2.genesis = kept.genesis
  cases replayed : replayFrom 0 blocks kept with
  | mk answer last =>
    rw [replayed] at settles
    cases settles with
    | done onward => exact onward.genesis_eq
    | stopped onward => exact onward.genesis_eq

theorem blocks_prefix_replay (kept : Chain Database) (blocks : List RawBlock) :
    kept.blocks <+: (kept.replay blocks).2.blocks := by
  obtain ⟨calls, _, same⟩ := exists_run_of_replayFrom 0 blocks kept
  show kept.blocks <+: (replayFrom 0 blocks kept).2.blocks
  rw [same]
  exact kept.blocks_prefix_run calls

end Chain

/-! ## One replay after another -/

namespace Host

open Chain

/-- What replays leave can be opened again. -/
theorem LeftByReplays.resumed {config : Config} {db : Database} (left : LeftByReplays config db) :
    ∃ (kept : Chain Database) (c : Chain UnspentSet), kept.genesis = config.genesis
      ∧ kept.store = db ∧ kept.store.Fits ∧ kept.Sustains c := by
  induction left with
  | empty => exact ⟨startKept config.genesis, _, rfl, rfl, List.forall_mem_nil _, .start _⟩
  | @replay db _ files path fits ih =>
    obtain ⟨kept, c, genesis, rfl, fits', sustains⟩ := ih
    by_cases unread : ∀ blocks, ¬ Loads files path blocks
    · rw [replayed_of_not_loads unread]
      exact ⟨kept, c, genesis, rfl, fits', sustains⟩
    · obtain ⟨blocks, loads⟩ := not_forall_not.1 unread
      obtain ⟨c', next⟩ := sustains.replay loads.formed
      have resumed := sustains.resume fits'
      rw [genesis] at resumed
      rw [replayed_eq loads resumed, verdict_snd] at fits ⊢
      exact ⟨_, c', (genesis_replay kept blocks).trans genesis, rfl, fits, next⟩

/-- What was replayed before makes no difference to a replay, as long as the file begins with it. -/
theorem replayed_again {config : Config} {db : Database} (left : LeftByReplays config db)
    {files : String → Option String} {whole part : String} {first later : List RawBlock}
    (loads : Loads files whole (first ++ later)) (loadsPart : Loads files part first)
    (fits : (replayed files config whole db).2.Fits) :
    replayed files config whole (replayed files config part db).2
      = replayed files config whole db := by
  obtain ⟨kept, c, genesis, rfl, fits', sustains⟩ := left.resumed
  have resumed := sustains.resume fits'
  rw [genesis] at resumed
  have again := ending_replay_again kept first later
  rw [replayed_eq loads resumed] at fits ⊢
  rw [replayed_eq loadsPart resumed, verdict_snd]
  obtain ⟨cut, sustainsCut⟩ := sustains.replay loadsPart.formed
  obtain ⟨once, sustainsOnce⟩ := sustains.replay loads.formed
  -- The blocks that the first part leaves are among those that the whole leaves.
  have fitsCut : (kept.replay first).2.store.Fits := by
    have same : ((kept.replay first).2.replay (first ++ later)).2 = (kept.replay (first ++ later)).2 := by
      rw [← ending_snd, again, ending_snd]
    have lasting := blocks_prefix_replay (kept.replay first).2 (first ++ later)
    rw [same] at lasting
    rw [verdict_snd, sustainsOnce.fits_iff] at fits
    exact sustainsCut.fits_iff.2 fun b member => fits b (lasting.subset member)
  have resumedCut := sustainsCut.resume fitsCut
  rw [genesis_replay, genesis] at resumedCut
  rw [replayed_eq loads resumedCut, again]

/-- Whatever replays came before, to replay the first blocks of a file and then the whole of it leaves the
same ledger as to replay it once, and it succeeds or fails alike, wherever the first replay stopped. To
replay it a second time changes nothing. The stored blocks have to be of lengths that a word counts, as
bytes in memory are. -/
theorem replay_cut_anywhere {config : Config} {db : Database} (left : LeftByReplays config db)
    {files : String → Option String} {whole part : String} {blocks : List RawBlock} (k : Nat)
    (loads : Loads files whole blocks) (loadsPart : Loads files part (blocks.take k))
    (fits : (replayed files config whole db).2.Fits) :
    let once := replayed files config whole db
    replayed files config whole (replayed files config part db).2 = once
      ∧ replayed files config whole once.2 = once := by
  refine ⟨?_, ?_⟩
  · rw [← List.take_append_drop k blocks] at loads
    exact replayed_again left loads loadsPart fits
  · have all : Loads files whole (blocks ++ []) := by rwa [List.append_nil]
    exact replayed_again left all loads fits

/-- The second of three blocks is above a gap, so every replay of the file ends there, also after one
of a file with the first block alone. -/
theorem replay_cut_before_gap :
    let config : Config := { Config.standard with genesis := ⟨"gen", 10⟩ }
    let blocks : List RawBlock := [⟨10, "a", "", [⟨"gen", [], [⟨2500, none⟩, ⟨7500, none⟩]⟩]⟩,
      ⟨12, "c", "b", []⟩, ⟨11, "b", "a", [⟨"next", [⟨"gen", 0⟩], [⟨2000, none⟩]⟩]⟩]
    let files : String → Option String := fun path =>
      if path = "all" then some (Json.Form.rawBlocks.text blocks)
      else some (Json.Form.rawBlocks.text (blocks.take 1))
    let once := replayed files config "all" Database.empty
    once.1 = .error (.rejected (.heightMismatch 11 12))
      ∧ replayed files config "all" (replayed files config "first" Database.empty).2 = once
      ∧ replayed files config "all" once.2 = once := by
  intro config blocks files once
  have formed : ∀ b ∈ blocks, b.Formed := by decide
  have loads : Loads files "all" blocks :=
    ⟨_, rfl, Json.Form.rawBlocks_discerns.ofText_text formed⟩
  have loadsFirst : Loads files "first" (blocks.take 1) :=
    ⟨_, rfl, Json.Form.rawBlocks_discerns.ofText_text fun b member =>
      formed b (List.mem_of_mem_take member)⟩
  have resumed : resume config.genesis Database.empty = .ok (startKept config.genesis) := rfl
  have ended : once = verdict (ending ((startKept config.genesis).replay blocks)) :=
    replayed_eq loads resumed
  have fits : once.2.Fits := by
    rw [ended]
    decide +kernel
  have outcome : once.1 = .error (.rejected (.heightMismatch 11 12)) := by
    rw [ended]
    rfl
  exact ⟨outcome, replay_cut_anywhere .empty 1 loads loadsFirst fits⟩

end Host

end TokenLedger
