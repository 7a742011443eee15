import Mathlib.Data.List.Nodup
import TokenLedger.Proofs.Sync.Correlation
import TokenLedger.Proofs.Wire.RoundTrip

/-!
What goes out in answer to a request. Whoever answers picks the blocks at or above the height that
was asked for and sorts them; whoever asked checks that the heights go up from there. As long as no
two of the blocks have one height, in whatever order they were at hand, what is sent passes that
check, and it is all that was asked for (`served_whole_and_in_order`).
-/

namespace TokenLedger.Sync

/-- What goes out in answer to a request. -/
def answer (request : Request) (blocks : List Block) : Bytes :=
  Envelope.bytes { message := .response (serve request blocks) }

theorem matchResponse_eq_ok_iff {request : Request} {response : Response} :
    matchResponse request response = .ok ()
      ↔ request.nonce = response.nonce ∧ Ascends request.fromHeight response.blocks := by
  rw [matchResponse, ← checkAscending_eq_ok_iff]
  by_cases same : request.nonce = response.nonce
  · rw [if_neg (not_not_intro same)]
    exact (and_iff_right same).symm
  · rw [if_pos same]
    exact iff_of_false nofun fun both => same both.1

/-- An awaited response whose blocks go up is accepted. -/
theorem Tracker.accept_of_ascends {t : Tracker} {response : Response} {height : UInt64}
    (known : t.outstanding.find? response.nonce = some height)
    (ascends : Ascends height response.blocks) : (t.accept response).1 = .ok response := by
  rw [accept_of_known known, checkAscending_eq_ok_iff.2 ascends]
  rfl

/-! ## What is served -/

theorem serve_perm (request : Request) (blocks : List Block) :
    (serve request blocks).blocks.Perm (blocks.filter fun b => request.fromHeight ≤ b.height) :=
  List.mergeSort_perm ..

/-- Blocks that go up are not sorted any further. -/
theorem serve_of_rising {blocks : List Block}
    (rising : blocks.Pairwise fun a b => a.height < b.height) (request : Request) :
    serve request blocks
      = ⟨blocks.filter fun b => request.fromHeight ≤ b.height, request.nonce⟩ := by
  have sorted : (blocks.filter fun b => request.fromHeight ≤ b.height).Pairwise
      fun a b => decide (a.height ≤ b.height) = true :=
    (rising.filter _).imp fun below => decide_eq_true (UInt64.le_of_lt below)
  rw [serve, List.mergeSort_of_pairwise sorted]

theorem serve_ascends {blocks : List Block} (distinct : (blocks.map Block.height).Nodup)
    (request : Request) : Ascends request.fromHeight (serve request blocks).blocks where
  above := by
    intro b member
    have picked := List.of_mem_filter ((serve_perm request blocks).subset member)
    exact of_decide_eq_true picked
  rising := by
    have apart : ((serve request blocks).blocks.map Block.height).Nodup :=
      ((serve_perm request blocks).map Block.height).nodup_iff.2
        ((List.filter_sublist.map Block.height).nodup distinct)
    have sorted : (serve request blocks).blocks.Pairwise fun a b => a.height ≤ b.height := by
      refine (List.pairwise_mergeSort ?_ ?_ _).imp of_decide_eq_true
      · intro a b c below below'
        exact decide_eq_true (UInt64.le_trans (of_decide_eq_true below) (of_decide_eq_true below'))
      · intro a b
        simpa using UInt64.le_total a.height b.height
    -- Sorting leaves equal heights next to each other, and there are none.
    refine sorted.imp₂ (fun a b notAbove differ => ?_) (List.pairwise_map.1 apart)
    exact UInt64.lt_of_le_of_ne notAbove differ

theorem count_serve {blocks : List Block} (distinct : blocks.Nodup) (request : Request)
    (b : Block) :
    (serve request blocks).blocks.count b
      = if b ∈ blocks ∧ request.fromHeight ≤ b.height then 1 else 0 := by
  rw [(serve_perm request blocks).count_eq, List.Nodup.count (distinct.filter _)]
  simp only [List.mem_filter, decide_eq_true_eq]

/-- For every request and any blocks of different heights, in any order: what is sent in answer
arrives as a response with the number of the request. It has each of the blocks at or above the
height that was asked for once and no others, answers the request, and is accepted wherever the
request is waiting. A response answers a request just if it has its number and its blocks go up from
the height that was asked for. The references in the blocks have to be well-formed to be told by
their texts, and what is sent has to be of a length that a word counts, as bytes in memory are. -/
theorem served_whole_and_in_order :
    (∀ (request : Request) (blocks : List Block),
      let sent := answer request blocks
      (blocks.map Block.height).Nodup → (∀ b ∈ blocks, ∀ tx ∈ b.txs, Wire.Codec.RefsFormed tx) →
      sent.length < UInt64.size →
      ∃ response, decodeResponse sent = .ok response ∧ response.nonce = request.nonce
        ∧ (∀ b, response.blocks.count b
          = if b ∈ blocks ∧ request.fromHeight ≤ b.height then 1 else 0)
        ∧ matchResponse request response = .ok ()
        ∧ ∀ t : Tracker, t.outstanding.find? request.nonce = some request.fromHeight →
          (t.accept response).1 = .ok response)
    ∧ ∀ request response, matchResponse request response = .ok ()
        ↔ request.nonce = response.nonce
          ∧ response.blocks.Pairwise (fun a b => a.height < b.height)
          ∧ ∀ b ∈ response.blocks, request.fromHeight ≤ b.height := by
  constructor
  · intro request blocks sent distinct formed fits
    have ascends := serve_ascends distinct request
    have picked : ∀ b ∈ (serve request blocks).blocks, ∀ tx ∈ b.txs, Wire.Codec.RefsFormed tx := by
      intro b member
      exact formed b (List.mem_of_mem_filter ((serve_perm request blocks).subset member))
    refine ⟨serve request blocks, decodeResponse_bytes picked fits, rfl,
      count_serve (.of_map Block.height distinct) request,
      matchResponse_eq_ok_iff.2 ⟨rfl, ascends⟩, fun t waiting => ?_⟩
    exact Tracker.accept_of_ascends waiting ascends
  · intro request response
    rw [matchResponse_eq_ok_iff]
    exact and_congr_right fun _ => ⟨fun ascends => ⟨ascends.rising, ascends.above⟩,
      fun both => ⟨both.2, both.1⟩⟩

/-- The blocks are at hand in no order; one of them is at the height that was asked for, and one
below it. -/
theorem served_from_middle :
    let b (height : UInt64) : Block :=
      ⟨height, "", "", [⟨"t", height, [⟨⟨"gen", 0⟩, none⟩], [], .vote, 0⟩]⟩
    let request : Request := ⟨10, -5⟩
    ∃ response, decodeResponse (answer request [b 12, b 9, b 10]) = .ok response
      ∧ response.blocks.count (b 10) = 1 ∧ response.blocks.count (b 9) = 0
      ∧ matchResponse request response = .ok ()
      ∧ ((Tracker.empty.track request).accept response).1 = .ok response := by
  intro b request
  have served : serve request [b 12, b 9, b 10] = ⟨[b 10, b 12], -5⟩ := by
    simp [serve, List.mergeSort, List.MergeSort.Internal.splitInTwo, b, request]
  obtain ⟨response, arrived, -, count, answers, accepted⟩ :=
    served_whole_and_in_order.1 request [b 12, b 9, b 10] (by decide) (by decide +kernel)
      (by rw [answer, served]; decide +kernel)
  exact ⟨response, arrived, (count (b 10)).trans (by decide +kernel),
    (count (b 9)).trans (by decide +kernel), answers, accepted _ rfl⟩

end TokenLedger.Sync
