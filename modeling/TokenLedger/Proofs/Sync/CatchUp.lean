import TokenLedger.Proofs.Chain.Growth
import TokenLedger.Proofs.Sync.Serving

/-!
Catching up. Nothing of a chain is lost on the way to a node that is behind: the blocks of a chain
ascend one by one, so whoever is asked from the next height on sends just the blocks that are
missing, in order; they arrive as they were sent, are what was waited for, and lead from where the
follower is to where the leader is (`follower_catches_up`).
-/

namespace TokenLedger

/-- The heights of blocks go up by one from a first height. -/
def Consecutive (first : Nat) (blocks : List Block) : Prop :=
  ∀ i b, blocks[i]? = some b → b.height.toNat = first + i

namespace Consecutive

variable {first : Nat} {blocks : List Block} {b : Block}

theorem head (consecutive : Consecutive first (b :: blocks)) : b.height.toNat = first :=
  consecutive 0 b rfl

theorem tail (consecutive : Consecutive first (b :: blocks)) : Consecutive (first + 1) blocks := by
  intro i other found
  have place := consecutive (i + 1) other (by rw [List.getElem?_cons_succ, found])
  omega

theorem le_of_mem (consecutive : Consecutive first blocks) (member : b ∈ blocks) :
    first ≤ b.height.toNat := by
  obtain ⟨i, found⟩ := List.mem_iff_getElem?.1 member
  have place := consecutive i b found
  omega

/-- The blocks from a height on are all but as many as lie below it. -/
theorem filter_eq_drop (consecutive : Consecutive first blocks) {height : UInt64} {k : Nat}
    (place : height.toNat = first + k) :
    (blocks.filter fun b => decide (height ≤ b.height)) = blocks.drop k := by
  induction blocks generalizing first k with
  | nil => simp
  | cons b rest ih =>
    cases k with
    | zero =>
      refine List.filter_eq_self.2 fun other member => decide_eq_true ?_
      rw [UInt64.le_iff_toNat_le, place]
      exact consecutive.le_of_mem member
    | succ k =>
      have below : ¬ height ≤ b.height := by
        rw [UInt64.le_iff_toNat_le, place, consecutive.head]
        omega
      rw [List.filter_cons_of_neg (by simpa using below), List.drop_succ_cons]
      exact ih consecutive.tail (by omega)

theorem rising (consecutive : Consecutive first blocks) :
    blocks.Pairwise fun a b => a.height < b.height := by
  induction blocks generalizing first with
  | nil => exact .nil
  | cons b rest ih =>
    refine List.pairwise_cons.2 ⟨fun other member => ?_, ih consecutive.tail⟩
    have above := consecutive.tail.le_of_mem member
    rw [UInt64.lt_iff_toNat_lt, consecutive.head]
    omega

theorem ascends {height : UInt64} (consecutive : Consecutive height.toNat blocks) :
    Sync.Ascends height blocks where
  above _ member := UInt64.le_iff_toNat_le.2 (consecutive.le_of_mem member)
  rising := consecutive.rising

theorem drop (consecutive : Consecutive first blocks) (k : Nat) :
    Consecutive (first + k) (blocks.drop k) := by
  intro i b found
  rw [List.getElem?_drop] at found
  have place := consecutive (k + i) b found
  omega

end Consecutive

namespace Sync

/-- Asked from some height on, whoever has consecutive blocks sends the ones that do not lie below
it, as they are. -/
theorem serve_eq {first : Nat} {blocks : List Block} (consecutive : Consecutive first blocks)
    {request : Request} {k : Nat} (place : request.fromHeight.toNat = first + k) :
    serve request blocks = { blocks := blocks.drop k, nonce := request.nonce } := by
  rw [serve_of_rising consecutive.rising, consecutive.filter_eq_drop place]

/-- A response to a request that is tracked is accepted, if its blocks go up from the height that
was asked for. -/
theorem Tracker.accept_track (t : Tracker) {request : Request} {blocks : List Block}
    (consecutive : Consecutive request.fromHeight.toNat blocks) :
    ((t.track request).accept { blocks, nonce := request.nonce }).1
      = .ok { blocks, nonce := request.nonce } := by
  have waiting : (t.track request).outstanding.find? request.nonce = some request.fromHeight := by
    rw [track, SortedMap.find?_insert, if_pos rfl]
  exact accept_of_ascends waiting consecutive.ascends

end Sync

namespace Chain

open Sync

/-- From a chain whose blocks are the first ones of another, the other blocks lead on to it. -/
theorem run_missing {g : Genesis} {leaderCalls followerCalls : List Call} {missing : List Block}
    (behind : ((start g).run leaderCalls).blocks
      = ((start g).run followerCalls).blocks ++ missing) :
    ((start g).run followerCalls).run (missing.map .peer) = (start g).run leaderCalls
      ∧ ((start g).run followerCalls).answers (missing.map .peer)
        = missing.map fun b => .ok (some b) := by
  obtain ⟨whole, answeredWhole⟩ := run_blocks g leaderCalls
  obtain ⟨part, answeredPart⟩ := run_blocks g followerCalls
  rw [behind, List.map_append] at whole answeredWhole
  rw [run_append, part] at whole
  rw [answers_append, part, answeredPart, List.map_append] at answeredWhole
  exact ⟨whole, List.append_cancel_left answeredWhole⟩

/-- A follower that has the first blocks of a leader asks from its next height on; what the leader
sends arrives, is accepted, and is taken in block by block, and then the follower is where the leader
is. The references that the leader recorded have to be well-formed to be told by their text, and the
response has to be of a length that a word counts, as bytes in memory are. -/
theorem follower_catches_up (g : Genesis) (leaderCalls followerCalls : List Call) (k : Nat)
    (height : UInt64) (tracker : Tracker) (nonce : Int32)
    (behind : ((start g).run followerCalls).blocks = ((start g).run leaderCalls).blocks.take k)
    (next : ((start g).run followerCalls).nextHeight = .ok height)
    (formed : ∀ b ∈ ((start g).run leaderCalls).blocks, ∀ tx ∈ b.txs, Wire.Codec.RefsFormed tx)
    (fits : (answer ⟨height, nonce⟩ ((start g).run leaderCalls).blocks).length < UInt64.size) :
    let leader := (start g).run leaderCalls
    let follower := (start g).run followerCalls
    let request : Request := ⟨height, nonce⟩
    ∃ response, decodeResponse (answer request leader.blocks) = .ok response
        ∧ ((tracker.track request).accept response).1 = .ok response
        ∧ follower.answers (response.blocks.map .peer)
          = response.blocks.map (fun b => .ok (some b))
        ∧ leader.blocks = follower.blocks ++ response.blocks
        ∧ follower.run (response.blocks.map .peer) = leader := by
  intro leader follower request
  have parts : leader.blocks = follower.blocks ++ leader.blocks.drop k := by
    rw [behind]
    exact (List.take_append_drop k leader.blocks).symm
  have consecutive : Consecutive g.height.toNat leader.blocks := by
    rw [← genesis_run g leaderCalls]
    exact (run_sound g leaderCalls).heights
  have place : height.toNat = g.height.toNat + follower.blocks.length := by
    rw [← genesis_run g followerCalls]
    exact (run_sound g followerCalls).nextHeight next
  have missing : leader.blocks.drop follower.blocks.length = leader.blocks.drop k := by
    have cut := congrArg (List.drop follower.blocks.length) parts
    rwa [List.drop_left] at cut
  have served : serve request leader.blocks
      = { blocks := leader.blocks.drop k, nonce := nonce } := by
    rw [serve_eq consecutive place, missing]
  have ascending : Consecutive request.fromHeight.toNat (leader.blocks.drop k) := by
    rw [← missing, show request.fromHeight.toNat = _ from place]
    exact consecutive.drop follower.blocks.length
  obtain ⟨caughtUp, answered⟩ := run_missing parts
  refine ⟨{ blocks := leader.blocks.drop k, nonce := nonce }, ?_, ?_, answered, parts, caughtUp⟩
  · rw [answer, served] at fits ⊢
    exact decodeResponse_bytes (fun b member => formed b (List.mem_of_mem_drop member)) fits
  · exact tracker.accept_track ascending

/-- A follower with the issue alone gets the block that spends from it. The leader was also given a
transaction that is not about token, of which the follower never hears. -/
theorem follower_catches_up_with_second_block :
    let issue : Call := .raw ⟨10, "a", "", [⟨"gen", [], [⟨2500, none⟩, ⟨7500, none⟩]⟩]⟩
    let spend : Call := .raw ⟨11, "b", "a", [⟨"other", [⟨"unknown", 0⟩], [⟨1, none⟩]⟩,
      ⟨"next", [⟨"gen", 0⟩], [⟨2000, none⟩]⟩]⟩
    let leader := (start ⟨"gen", 10⟩).run [issue, spend]
    let follower := (start ⟨"gen", 10⟩).run [issue]
    ∃ response, decodeResponse (answer ⟨11, 7⟩ leader.blocks) = .ok response
      ∧ leader.blocks = follower.blocks ++ response.blocks
      ∧ follower.run (response.blocks.map .peer) = leader := by
  intro issue spend leader follower
  obtain ⟨response, arrived, _, _, parts, caughtUp⟩ := follower_catches_up ⟨"gen", 10⟩
    [issue, spend] [issue] 1 11 .empty 7 rfl rfl
    (refsFormed_run (start_sound _) nofun (by decide)) (by decide +kernel)
  exact ⟨response, arrived, parts, caughtUp⟩

end Chain

end TokenLedger
