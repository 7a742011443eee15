import TokenLedger.Proofs.Wire.Envelope
import TokenLedger.Proofs.Wire.Spelling
import TokenLedger.Sync.Exchange

/-!
What is written reads back. A codec is faithful to values if it reads each of them off the front of
its bytes and leaves what follows alone. It is so if the texts in the spelling that is written are
read as the references that they came from.

Texts and lists come after their length in a word. So the bytes of a value have to be so few that a
word counts them, as is the case for any bytes that are held in memory; then every length in it fits.
-/

namespace TokenLedger.Wire

namespace Codec

/-- The codec reads values of which `P` holds back off the front of their bytes, as long as a word
counts these. -/
def Faithful {α : Type} (c : Codec α) (P : α → Prop) : Prop :=
  ∀ a, P a → (c.encode a).length < UInt64.size → ∀ rest, c.decode (c.encode a ++ rest) = .ok (a, rest)

theorem Exact.faithful {α : Type} {c : Codec α} {P : α → Prop} (exact : c.Exact P) :
    c.Faithful P :=
  fun _ good _ rest => exact.decode good rest

/-- Every input of the record names a well-formed id. -/
def RefsFormed (tx : Tx) : Prop := ∀ i ∈ tx.inputs, WellFormedId i.ref.txId

instance (tx : Tx) : Decidable (RefsFormed tx) :=
  inferInstanceAs (Decidable (∀ i ∈ tx.inputs, WellFormedId i.ref.txId))

end Codec

namespace Spelling

open Codec

theorem faithful {α : Type} {c : Codec α} (s : Spelling c) {P : α → Prop}
    (standsFor : ∀ a, P a → s.StandsFor (s.spell a) a) : c.Faithful P := by
  intro a good fits rest
  rw [← s.encode_spell] at fits
  exact s.decode_spell (s.counted_of_length _ fits) (standsFor a good) rest

theorem standFor_map_spell {α : Type} {c : Codec α} (s : Spelling c) {as : List α}
    (standsFor : ∀ a ∈ as, s.StandsFor (s.spell a) a) :
    List.Forall₂ s.StandsFor (as.map s.spell) as :=
  List.forall₂_map_left_iff.2 (List.forall₂_same.2 standsFor)

theorem list_faithful {α : Type} {c : Codec α} (s : Spelling c) (nonempty : s.codec.Nonempty)
    {P : α → Prop} (standsFor : ∀ a, P a → s.StandsFor (s.spell a) a) :
    c.list.Faithful fun as => ∀ a ∈ as, P a :=
  (s.list nonempty).faithful fun _ good => s.standFor_map_spell fun a member =>
    standsFor a (good a member)

theorem nonempty {α : Type} {c : Codec α} (s : Spelling c) (nonempty : s.codec.Nonempty) :
    c.Nonempty := by
  intro a
  rw [← s.encode_spell]
  exact nonempty (s.spell a)

theorem text_faithful : Codec.text.Faithful fun _ => True :=
  text.faithful fun _ _ => rfl

theorem txInput_standsFor (i : TxInput) (formed : WellFormedId i.ref.txId) :
    txInput.StandsFor (txInput.spell i) i :=
  And.intro (OutputRef.parse_text formed) rfl

theorem tx_standsFor (t : Tx) (formed : RefsFormed t) : tx.StandsFor (tx.spell t) t := by
  have inputs := txInput.standFor_map_spell fun i member => txInput_standsFor i (formed i member)
  have outputs := (ofExact txOutput_exact fun _ => dataCounted_of_length).standFor_map_spell
    fun o (_ : o ∈ t.outputs) => rfl
  exact ⟨rfl, rfl, inputs, outputs, rfl, rfl⟩

theorem block_standsFor (b : Block) (formed : ∀ t ∈ b.txs, RefsFormed t) :
    block.StandsFor (block.spell b) b := by
  have txs := tx.standFor_map_spell fun t member => tx_standsFor t (formed t member)
  exact ⟨rfl, rfl, rfl, txs⟩

theorem message_standsFor_request (r : Sync.Request) :
    message.StandsFor (message.spell (.request r)) (.request r) :=
  Sum.LiftRel.inl ⟨rfl, rfl⟩

theorem message_standsFor_response (r : Sync.Response)
    (formed : ∀ b ∈ r.blocks, ∀ t ∈ b.txs, RefsFormed t) :
    message.StandsFor (message.spell (.response r)) (.response r) := by
  have blocks := block.standFor_map_spell fun b member => block_standsFor b (formed b member)
  exact Sum.LiftRel.inr ⟨blocks, rfl⟩

end Spelling

theorem length_encodeVersioned {α : Type} (c : Codec α) (version : UInt32) (a : α) :
    (encodeVersioned c version a).length = headerSize + (c.encode a).length := by
  rw [encodeVersioned, List.length_append, length_header]

/-- A value behind a version reads back where that version is supported. -/
theorem decodeVersioned_encodeVersioned {α : Type} {c : Codec α} {P : α → Prop}
    (faithful : c.Faithful P) {a : α} (good : P a) {version : UInt32}
    (fits : (encodeVersioned c version a).length < UInt64.size) :
    decodeVersioned c version (encodeVersioned c version a) = .ok a := by
  rw [length_encodeVersioned] at fits
  have read := faithful a good (by omega) []
  rw [List.append_nil] at read
  exact decodeVersioned_of_ok read

end TokenLedger.Wire

namespace TokenLedger

/-! ## What is stored -/

/-- The stored form of an entry has a fixed size, so it always reads back. -/
theorem Utxo.ofBytes_bytes (entry : Utxo) : ofBytes entry.bytes = .ok entry := by
  have read := Wire.Codec.utxo_exact.decode (a := entry) trivial []
  rw [List.append_nil] at read
  exact Wire.decodeVersioned_of_ok read

theorem Block.ofBytes_bytes {b : Block} (formed : ∀ tx ∈ b.txs, Wire.Codec.RefsFormed tx)
    (fits : b.bytes.length < UInt64.size) : ofBytes b.bytes = .ok b :=
  Wire.decodeVersioned_encodeVersioned (Wire.Spelling.block.faithful Wire.Spelling.block_standsFor)
    formed fits

end TokenLedger

namespace TokenLedger.Sync

/-- A response that travels in an envelope arrives as it was sent. -/
theorem decodeResponse_bytes {response : Response}
    (formed : ∀ b ∈ response.blocks, ∀ tx ∈ b.txs, Wire.Codec.RefsFormed tx)
    (fits : (Envelope.bytes { message := .response response }).length < UInt64.size) :
    decodeResponse (Envelope.bytes { message := .response response }) = .ok response := by
  have opened : Envelope.ofBytes (Envelope.bytes { message := .response response })
      = .ok { message := .response response } := by
    have standsFor := Wire.Spelling.message_standsFor_response response formed
    have faithful := Wire.Spelling.message.faithful (P := fun m => m = .response response)
      fun _ same => same ▸ standsFor
    have read := Wire.decodeVersioned_encodeVersioned faithful rfl fits
    unfold Envelope.ofBytes
    rw [Envelope.bytes, read]
    rfl
  simp only [decodeResponse, openEnvelope, opened]
  rfl

end TokenLedger.Sync
