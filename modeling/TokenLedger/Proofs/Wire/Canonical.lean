import TokenLedger.Proofs.Wire.Versioned

/-!
Whether what was read has one form only. A place in the text of a reference may have zeros in front,
which are lost when it is read. Every other text, and all else in a record, is written back as it was
(`written_back_iff_not_padded`).
-/

namespace TokenLedger

namespace Wire

/-- The bytes that are consumed in reading a value: it is read whatever follows them, and nothing is
read off less. -/
structure Consumes {α : Type} (read : Bytes → Except Error α) (consumed : Bytes) (a : α) : Prop where
  whole : ∀ more, read (consumed ++ more) = .ok a
  less : ∀ front, front <+: consumed → front ≠ consumed → ∃ e, read front = .error e

/-- The bytes start with a spelling that is consumed in reading the value, and the value is written
back as these bytes just if no text of a reference in the spelling has padding. -/
def ReadAs {α β : Type} {c : Codec α} (s : Spelling c) (version : UInt32)
    (read : Bytes → Except Error β) (write : β → Bytes) (bytes : Bytes) (b : β) : Prop :=
  ∃ l rest, bytes = encodeVersioned s.codec version l ++ rest
    ∧ Consumes read (encodeVersioned s.codec version l) b
    ∧ (write b = encodeVersioned s.codec version l ↔ ∀ t ∈ s.texts l, ¬ OutputRef.Padded t)

theorem Spelling.readAs {α : Type} {c : Codec α} (s : Spelling c) {version : UInt32} {bytes : Bytes}
    {a : α} (read : decodeVersioned c version bytes = .ok a) :
    ReadAs s version (decodeVersioned c version) (encodeVersioned c version) bytes a := by
  obtain ⟨body, rest, rfl, decoded⟩ := exists_of_decodeVersioned read
  obtain ⟨l, counted, standsFor, rfl⟩ := s.exists_of_decode decoded
  refine ⟨l, rest, (List.append_assoc ..).symm, ⟨?_, ?_⟩, ?_⟩
  · intro more
    rw [encodeVersioned, List.append_assoc]
    exact decodeVersioned_of_ok (s.decode_encode counted standsFor more)
  · intro front part less
    have refused := s.decodeVersioned_prefix counted version part less
    split at refused
    · exact ⟨_, refused⟩
    · obtain ⟨e, refused⟩ := refused
      exact ⟨_, refused⟩
  · rw [← s.encode_eq_iff counted standsFor]
    exact List.append_right_inj _

end Wire

open Wire

theorem Sync.Envelope.readAs {bytes : Bytes} {e : Sync.Envelope} (read : ofBytes bytes = .ok e) :
    ReadAs Spelling.message Sync.messageVersion ofBytes Sync.Envelope.bytes bytes e := by
  obtain ⟨m, opened, same⟩ := bind_eq_ok_iff.1 read
  obtain rfl := Except.ok.inj same
  obtain ⟨l, rest, rfl, consumes, written⟩ := Spelling.message.readAs opened
  refine ⟨l, rest, rfl, ⟨?_, ?_⟩, written⟩
  · intro more
    exact bind_eq_ok_iff.2 ⟨m, consumes.whole more, rfl⟩
  · intro front part less
    obtain ⟨e, refused⟩ := consumes.less front part less
    exact ⟨e, by rw [Sync.Envelope.ofBytes, refused]; rfl⟩

/-- What was read is written back as it was unless the text of a reference in it has padding. -/
theorem written_back_iff_not_padded (s : String) (bytes : Bytes) :
    (∀ r, OutputRef.parse s = .ok r → (s = r.text ↔ ¬ OutputRef.Padded s))
    ∧ (∀ r, OutputRef.ofBytes bytes = .ok r →
        ReadAs Spelling.reference recordVersion OutputRef.ofBytes OutputRef.bytes bytes r)
    ∧ (∀ t, Tx.ofBytes bytes = .ok t →
        ReadAs Spelling.tx recordVersion Tx.ofBytes Tx.bytes bytes t)
    ∧ (∀ b, Block.ofBytes bytes = .ok b →
        ReadAs Spelling.block recordVersion Block.ofBytes Block.bytes bytes b)
    ∧ ∀ e, Sync.Envelope.ofBytes bytes = .ok e →
        ReadAs Spelling.message Sync.messageVersion Sync.Envelope.ofBytes Sync.Envelope.bytes
          bytes e :=
  ⟨fun _ => OutputRef.eq_text_iff, fun _ => Spelling.reference.readAs, fun _ => Spelling.tx.readAs,
    fun _ => Spelling.block.readAs, fun _ => Sync.Envelope.readAs⟩

theorem written_back_without_padding :
    let r : OutputRef := ⟨"a", 7⟩
    let t : Tx := ⟨"b", 11, [⟨r, some 3⟩, ⟨⟨"c", 0⟩, none⟩], [⟨0, 3, some [1], 3, .token⟩],
      .transfer, 0⟩
    let b : Block := ⟨11, "h11", "h10", [t]⟩
    let e : Sync.Envelope := { message := .response ⟨[b], -5⟩ }
    (OutputRef.parse "a:7" = .ok r ∧ ("a:7" = r.text ↔ ¬ OutputRef.Padded "a:7"))
      ∧ ReadAs Spelling.reference recordVersion OutputRef.ofBytes OutputRef.bytes r.bytes r
      ∧ ReadAs Spelling.tx recordVersion Tx.ofBytes Tx.bytes t.bytes t
      ∧ ReadAs Spelling.block recordVersion Block.ofBytes Block.bytes b.bytes b
      ∧ ReadAs Spelling.message Sync.messageVersion Sync.Envelope.ofBytes Sync.Envelope.bytes
        e.bytes e := by
  intro r t b e
  have parsed : OutputRef.parse "a:7" = .ok r := by decide +kernel
  obtain ⟨ofText, ofReference, -⟩ := written_back_iff_not_padded "a:7" r.bytes
  obtain ⟨-, -, ofTx, -⟩ := written_back_iff_not_padded "" t.bytes
  obtain ⟨-, -, -, ofBlock, -⟩ := written_back_iff_not_padded "" b.bytes
  obtain ⟨-, -, -, -, ofEnvelope⟩ := written_back_iff_not_padded "" e.bytes
  exact ⟨⟨parsed, ofText r parsed⟩, ofReference r (by decide +kernel), ofTx t (by decide +kernel),
    ofBlock b (by decide +kernel), ofEnvelope e (by decide +kernel)⟩

/-- A place with zeros in front is read, and is not written back as it was. -/
theorem padded_place_not_written_back :
    let r : OutputRef := ⟨"a", 7⟩
    let stored : Bytes := [1, 0, 0, 0, 5, 0, 0, 0, 0, 0, 0, 0, 97, 58, 48, 48, 55]
    OutputRef.parse "a:007" = .ok r ∧ r.text = "a:7"
      ∧ OutputRef.ofBytes stored = .ok r
      ∧ (∀ n < stored.length, OutputRef.ofBytes (stored.take n) ≠ .ok r)
      ∧ r.bytes = [1, 0, 0, 0, 3, 0, 0, 0, 0, 0, 0, 0, 97, 58, 55] := by
  decide +kernel

end TokenLedger
