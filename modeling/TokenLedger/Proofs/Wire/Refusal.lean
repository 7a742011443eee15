import TokenLedger.Proofs.Wire.RoundTrip

/-!
What is written and does not read back. References are written whatever their ids are, but only those
with well-formed ids are read. A codec refuses values if it cannot read them back for a reference in
them. The parts that codecs are put together from keep this as well, as long as what stands before the
reference reads back. So one malformed reference is enough to lose a whole block.
-/

namespace TokenLedger.Wire

namespace Codec

/-- The codec refuses for a reference to read values of which `P` does not hold off the front of their
bytes, as long as a word counts these. -/
def Refuses {α : Type} (c : Codec α) (P : α → Prop) : Prop :=
  ∀ a, ¬ P a → (c.encode a).length < UInt64.size →
    ∀ rest, ∃ e, c.decode (c.encode a ++ rest) = .error (.notReference e)

section Parts

variable {α β : Type} {P : α → Prop} {Q : β → Prop}

theorem refuses_of_forall (c : Codec α) (all : ∀ a, P a) : c.Refuses P :=
  fun a bad => absurd (all a) bad

theorem reference_refuses : reference.Refuses fun r => WellFormedId r.txId := by
  intro r malformed fits rest
  have read : text.decode (reference.encode r ++ rest) = .ok (r.text, rest) :=
    Spelling.text_faithful r.text trivial fits rest
  obtain ⟨e, unread⟩ := OutputRef.exists_parse_text_error malformed
  simp only [reference, refine] at read ⊢
  exact ⟨e, by simp only [read, ok_bind, unread]; rfl⟩

theorem Refuses.imap {c : Codec α} (refuses : c.Refuses P) {f : α → β} {g : β → α}
    (back : ∀ b, P (g b) → Q b) : (c.imap f g).Refuses Q := by
  intro b bad fits rest
  obtain ⟨e, unread⟩ := refuses (g b) (fun good => bad (back b good)) fits rest
  exact ⟨e, by simp only [Codec.imap, unread, error_bind]⟩

/-- It is the first part that is refused, or the first part reads back and the second is refused. -/
theorem Refuses.pair {first : Codec α} {second : Codec β} (faithful : first.Faithful P)
    (refuses : first.Refuses P) (refuses' : second.Refuses Q) :
    (first.pair second).Refuses fun v => P v.1 ∧ Q v.2 := by
  rintro ⟨a, b⟩ bad fits rest
  simp only [Codec.pair, List.length_append] at fits
  simp only [Codec.pair, List.append_assoc]
  by_cases good : P a
  · have read := faithful a good (by omega) (second.encode b ++ rest)
    obtain ⟨e, unread⟩ := refuses' b (fun good' => bad ⟨good, good'⟩) (by omega) rest
    exact ⟨e, by simp only [read, ok_bind, unread, error_bind]⟩
  · obtain ⟨e, unread⟩ := refuses a good (by omega) (second.encode b ++ rest)
    exact ⟨e, by simp only [unread, error_bind]⟩

/-- Reading values one after the other stops at the first that is refused. -/
theorem decodeMany_flatMap_error {c : Codec α} (faithful : c.Faithful P) (refuses : c.Refuses P)
    {as : List α} (bad : ¬ ∀ a ∈ as, P a) (fits : (as.flatMap c.encode).length < UInt64.size)
    (rest : Bytes) :
    ∃ e, decodeMany c as.length (as.flatMap c.encode ++ rest) = .error (.notReference e) := by
  induction as with
  | nil => exact absurd nofun bad
  | cons a as ih =>
    rw [List.flatMap_cons, List.length_append] at fits
    rw [List.flatMap_cons, List.append_assoc, List.length_cons, decodeMany]
    by_cases good : P a
    · have read := faithful a good (by omega) (as.flatMap c.encode ++ rest)
      rw [List.forall_mem_cons] at bad
      obtain ⟨e, unread⟩ := ih (fun later => bad ⟨good, later⟩) (by omega)
      exact ⟨e, by simp only [read, ok_bind, unread, error_bind]⟩
    · obtain ⟨e, unread⟩ := refuses a good (by omega) (as.flatMap c.encode ++ rest)
      exact ⟨e, by simp only [unread, error_bind]⟩

theorem Refuses.list {c : Codec α} (faithful : c.Faithful P) (refuses : c.Refuses P)
    (nonempty : c.Nonempty) : c.list.Refuses fun as => ∀ a ∈ as, P a := by
  intro as bad fits rest
  have few := nonempty.length_le as
  simp only [Codec.list, List.length_append, length_encode_word64] at fits
  have count : (UInt64.ofNat as.length).toNat = as.length :=
    UInt64.toNat_ofNat_of_lt' (by omega)
  have read := word64_exact.decode (a := UInt64.ofNat as.length) trivial
    (as.flatMap c.encode ++ rest)
  simp only [Codec.list, List.append_assoc, read, ok_bind, count]
  exact decodeMany_flatMap_error faithful refuses bad (by omega) rest

end Parts

/-! ## Records -/

theorem txInput_refuses : txInput.Refuses fun i => WellFormedId i.ref.txId := by
  have faithful : reference.Faithful fun r => WellFormedId r.txId :=
    Spelling.reference.faithful fun _ => OutputRef.parse_text
  exact (Refuses.pair faithful reference_refuses
    (refuses_of_forall (option word64) fun _ => trivial)).imap fun _ good => good.1

theorem tx_refuses : tx.Refuses RefsFormed := by
  have faithful := Spelling.txInput.faithful Spelling.txInput_standsFor
  have inputs_faithful := Spelling.txInput.list_faithful Spelling.txInput_nonempty
    Spelling.txInput_standsFor
  have inputs : (list txInput).Refuses fun inputs => ∀ i ∈ inputs, WellFormedId i.ref.txId :=
    .list faithful txInput_refuses (Spelling.txInput.nonempty Spelling.txInput_nonempty)
  -- Nothing is refused before the inputs, and nothing that comes after them makes up for them.
  have others {α : Type} (c : Codec α) : c.Refuses fun _ => True :=
    refuses_of_forall c fun _ => trivial
  exact (Refuses.pair Spelling.text_faithful (others text)
    (.pair word64_exact.faithful (others word64)
      (.pair inputs_faithful inputs (others _)))).imap fun _ good => good.2.2.1

theorem block_refuses : block.Refuses fun b => ∀ tx ∈ b.txs, RefsFormed tx := by
  have faithful := Spelling.tx.faithful Spelling.tx_standsFor
  have txs : (list tx).Refuses fun txs => ∀ tx ∈ txs, RefsFormed tx :=
    .list faithful tx_refuses (Spelling.tx.nonempty Spelling.tx_nonempty)
  have others {α : Type} (c : Codec α) : c.Refuses fun _ => True :=
    refuses_of_forall c fun _ => trivial
  exact (Refuses.pair word64_exact.faithful (others word64)
    (.pair Spelling.text_faithful (others text)
      (.pair Spelling.text_faithful (others text) txs))).imap fun _ good => good.2.2.2

end Codec

/-- Behind a version as well, a value that is refused stays so. -/
theorem decodeVersioned_encodeVersioned_error {α : Type} {c : Codec α} {P : α → Prop}
    (refuses : c.Refuses P) {a : α} (bad : ¬ P a) {version : UInt32}
    (fits : (encodeVersioned c version a).length < UInt64.size) :
    ∃ e, decodeVersioned c version (encodeVersioned c version a)
      = .error (.codec (.notReference e)) := by
  rw [length_encodeVersioned] at fits
  obtain ⟨e, unread⟩ := refuses a bad (by omega) []
  rw [List.append_nil] at unread
  exact ⟨e, decodeVersioned_of_error unread⟩

end TokenLedger.Wire

namespace TokenLedger

theorem Block.ofBytes_bytes_error {b : Block}
    (malformed : ¬ ∀ tx ∈ b.txs, Wire.Codec.RefsFormed tx) (fits : b.bytes.length < UInt64.size) :
    ∃ e, ofBytes b.bytes = .error (.codec (.notReference e)) :=
  Wire.decodeVersioned_encodeVersioned_error Wire.Codec.block_refuses malformed fits

end TokenLedger
