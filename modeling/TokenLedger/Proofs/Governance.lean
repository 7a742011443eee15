import TokenLedger.Proofs.Classification.Data
import TokenLedger.Proofs.Classification.Kind

/-!
Payloads as the ledger takes them. What is written for a content is always a payload, and in the
last output of a token transaction it makes the transaction what its tag and version say. The
content has no part in that: with another one, all that is different is the data in the record
(`Payload.read_as_written`).
-/

namespace TokenLedger

/-- A transaction with one more output at its end, which carries data. -/
def RawTx.carrying (raw : RawTx) (value : UInt64) (data : Bytes) : RawTx :=
  { raw with outputs := raw.outputs ++ [{ value, data? := some data }] }

theorem RawOutput.mapData_of_noData {o : RawOutput} (noData : o.data? = none)
    (f : Bytes → Bytes) : o.mapData f = o := by
  obtain ⟨value, data?⟩ := o
  cases noData
  rfl

section

variable {raw : RawTx} (noData : ∀ o ∈ raw.outputs, o.data? = none) (value : UInt64) (data : Bytes)

include noData

theorem RawTx.mapData_carrying (f : Bytes → Bytes) :
    (raw.carrying value data).mapData f = raw.carrying value (f data) := by
  have front : raw.outputs.map (RawOutput.mapData f) = raw.outputs :=
    (List.map_congr_left fun o member => RawOutput.mapData_of_noData (noData o member) f).trans
      (List.map_id' _)
  rw [carrying, mapData, List.map_append, front]
  rfl

/-- Where only the last output carries data, the kind is what that data asks for. -/
theorem RawTx.finalKind_carrying (burnt : UInt64) :
    (raw.carrying value data).finalKind burnt
      = ((Payload.kindOf? data).map GovernanceKind.txKind).getD
        (if 0 < burnt then .feePayment else .transfer) := by
  have early : ¬ ∃ o ∈ raw.outputs, o.asked?.isSome := by
    rintro ⟨o, member, asks⟩
    rw [asked?_of_noData (noData o member)] at asks
    cases asks
  have last : ({ value, data? := some data } : RawOutput).asked? = Payload.kindOf? data :=
    (kindOf?_eq_asked? rfl).symm
  simp only [finalKind, carrying, List.dropLast_concat, List.getLast?_concat, early, if_false,
    Option.bind_some, last]
  cases Payload.kindOf? data <;> rfl

/-- Data in the last output can be replaced by data that asks for the same. -/
theorem classify_carrying {σ : Type} [Store σ] {data' : Bytes}
    (alike : Payload.kindOf? data' = Payload.kindOf? data) (height made : UInt64) (s : σ) :
    let c := classify height (Tx.ofRaw (raw.carrying value data) made) s
    classify height (Tx.ofRaw (raw.carrying value data') made) s
      = { c with tx := c.tx.mapData fun _ => data' } := by
  have same : AsksAlike (fun _ => data') (Tx.ofRaw (raw.carrying value data) made).outputs := by
    refine .ofRaw (fun o member carried found => ?_) made
    rcases List.mem_append.1 member with front | last
    · rw [noData o front] at found
      cases found
    · obtain rfl := List.mem_singleton.1 last
      cases found
      exact alike
  rw [← RawTx.mapData_carrying noData value data fun _ => data', Tx.ofRaw_mapData]
  exact classify_mapData same height s

end

namespace Payload

/-- What a token transaction is that carries a payload in its last output and burns an amount. -/
def txKind (tag version : UInt8) (burnt : UInt64) : TxKind :=
  if tag = 1 ∧ version = 1 then .compensationRequest
  else if tag = 2 ∧ version = 1 then .vote
  else if 0 < burnt then .feePayment
  else .transfer

theorem finalKind_carrying_encode {raw : RawTx} (noData : ∀ o ∈ raw.outputs, o.data? = none)
    (value : UInt64) (tag version : UInt8) (content : Bytes) (burnt : UInt64) :
    (raw.carrying value (encode tag version content)).finalKind burnt
      = txKind tag version burnt := by
  rw [RawTx.finalKind_carrying noData, kindOf?_encode, txKind, compensationRequestTag, voteTag,
    currentVersion]
  split
  · rfl
  · split <;> rfl

/-- What is written for a content is a payload, whatever its tag and version: no fault arises, and
it reads back as its tag, its version and the digest of the content. A transaction without other
data that carries it in its last output is kept exactly if its inputs are worth something that a
balance holds. It then is what the tag and the version say, or a payment or a transfer if they say
nothing. With another content all is the same but the data in the record. -/
theorem read_as_written (tag version : UInt8) (content : Bytes) :
    let payload := encode tag version content
    tryEncode tag version content = .ok payload ∧ payload ≠ []
      ∧ decode? payload = some ⟨tag, version, Ripemd160.digest (Sha256.digest content)⟩
      ∧ (tag = 1 ∧ version = 1 → payload = encodeRequest content)
      ∧ ∀ (u : UnspentSet) (raw : RawTx) (value height made : UInt64),
        (∀ o ∈ raw.outputs, o.data? = none) →
        let c := classify height (Tx.ofRaw (raw.carrying value payload) made) u
        (c.result = .ok true ↔ 0 < worth u raw.inputs ∧ worth u raw.inputs ≤ 2 ^ 63 - 1)
          ∧ (c.result = .ok true → c.tx.kind = txKind tag version c.tx.burntFee)
          ∧ ∀ other, classify height
              (Tx.ofRaw (raw.carrying value (encode tag version other)) made) u
            = { c with tx := c.tx.mapData fun _ => encode tag version other } := by
  intro payload
  refine ⟨?_, ?_, decode?_encode tag version content, ?_, fun u raw value height made noData => ?_⟩
  · rw [tryEncode_eq, ← encode_eq]
  · simp only [payload, encode_eq, ne_eq, reduceCtorEq, not_false_eq_true]
  · rintro ⟨rfl, rfl⟩
    rfl
  intro c
  have holds : Holds u u := holds_unspentSet_iff.2 rfl
  have alike (other : Bytes) : kindOf? (encode tag version other) = kindOf? payload := by
    rw [kindOf?_encode, kindOf?_encode]
  refine ⟨?_, fun kept => ?_,
    fun other => classify_carrying noData value payload (alike other) height made u⟩
  · have listed := congrArg RawTx.inputs (toRaw_ofRaw (raw.carrying value payload) made)
    exact classify_kept_iff holds height listed
  · rw [classify_kind holds kept, finalKind_carrying_encode noData]

/-- The second output is more than what is left after the first, so in each case some is burnt. Only
with a version that says nothing does this make the transaction a payment. -/
theorem read_as_written_in_three_ways :
    let u : UnspentSet := SortedMap.empty.insert ⟨"a", 0⟩ ⟨100, 5, .token⟩
    let raw : RawTx := ⟨"t", [⟨"a", 0⟩], [⟨60, none⟩, ⟨50, none⟩]⟩
    let kind tag version content :=
      (classify 7 (Tx.ofRaw (raw.carrying 0 (encode tag version content)) 7) u).tx.kind
    kind 1 1 [] = .compensationRequest ∧ kind 2 1 [7] = .vote ∧ kind 2 2 [7] = .feePayment := by
  intro u raw kind
  have noData : ∀ o ∈ raw.outputs, o.data? = none := by decide
  have bears : 0 < worth u raw.inputs ∧ worth u raw.inputs ≤ 2 ^ 63 - 1 := by decide
  have becomes (tag version : UInt8) (content : Bytes) :
      kind tag version content = txKind tag version
        (classify 7 (Tx.ofRaw (raw.carrying 0 (encode tag version content)) 7) u).tx.burntFee := by
    obtain ⟨-, -, -, -, taken⟩ := read_as_written tag version content
    obtain ⟨kept, agrees, -⟩ := taken u raw 0 7 7 noData
    exact agrees (kept.2 bears)
  exact ⟨becomes 1 1 [], becomes 2 1 [7], (becomes 2 2 [7]).trans (by decide)⟩

end Payload

end TokenLedger
