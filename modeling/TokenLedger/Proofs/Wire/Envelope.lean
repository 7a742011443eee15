import TokenLedger.Proofs.Wire.Exact
import TokenLedger.Wire.Envelope

/-!
What stands behind a version. The version is read first; the rest is looked at only if this version is
supported, and an error in it is passed on.
-/

namespace TokenLedger.Wire

open Codec

theorem length_header (version : UInt32) : (word32.encode version).length = headerSize :=
  length_encode_word32 version

theorem peekVersion_of_short {bytes : Bytes} (short : bytes.length < headerSize) :
    peekVersion bytes = .error (.truncated bytes.length) :=
  if_pos short

theorem peekVersion_eq_ok_iff {bytes : Bytes} {version : UInt32} :
    peekVersion bytes = .ok version ↔ ∃ body, bytes = word32.encode version ++ body := by
  constructor
  · intro read
    unfold peekVersion at read
    split at read
    · cases read
    · rename_i enough
      have length : (bytes.take headerSize).length = headerSize :=
        List.length_take_of_le (Nat.le_of_not_lt enough)
      have decoded : word32.decode (bytes.take headerSize ++ bytes.drop headerSize)
          = .ok (version, bytes.drop headerSize) := by
        refine decode_imap_iff.2 ⟨_, ?_, Except.ok.inj read⟩
        simp only [number, splitAt?_append (show _ = 4 from length)]
      rw [List.take_append_drop] at decoded
      exact ⟨_, ((word32_exact ..).1 decoded).2⟩
  · rintro ⟨body, rfl⟩
    have header := length_header version
    have enough : ¬ (word32.encode version ++ body).length < headerSize := by
      rw [List.length_append]
      omega
    have front : (word32.encode version ++ body).take headerSize
        = Word.littleEndian 4 version.toNat := by
      rw [← header, List.take_left]
      rfl
    rw [peekVersion, if_neg enough, front, Word.ofLittleEndian_littleEndian version.toNat_lt,
      UInt32.ofNat_toNat]

section Body

variable {α : Type} {c : Codec α} {version : UInt32} {body : Bytes}

theorem drop_header : (word32.encode version ++ body).drop headerSize = body := by
  rw [← length_header version, List.drop_left]

theorem decodeVersioned_of_short {bytes : Bytes} (short : bytes.length < headerSize) :
    decodeVersioned c version bytes = .error (.truncated bytes.length) := by
  rw [decodeVersioned, peekVersion_of_short short]
  rfl

theorem decodeVersioned_of_ne {supported : UInt32} (other : version ≠ supported) :
    decodeVersioned c supported (word32.encode version ++ body)
      = .error (.unsupportedVersion version supported) := by
  simp only [decodeVersioned, peekVersion_eq_ok_iff.2 ⟨body, rfl⟩, ok_bind, if_neg other]

theorem decodeVersioned_of_error {e : CodecError} (unread : c.decode body = .error e) :
    decodeVersioned c version (word32.encode version ++ body) = .error (.codec e) := by
  simp only [decodeVersioned, peekVersion_eq_ok_iff.2 ⟨body, rfl⟩, ok_bind, if_true, drop_header,
    unread]

theorem decodeVersioned_of_ok {a : α} {rest : Bytes} (read : c.decode body = .ok (a, rest)) :
    decodeVersioned c version (word32.encode version ++ body) = .ok a := by
  simp only [decodeVersioned, peekVersion_eq_ok_iff.2 ⟨body, rfl⟩, ok_bind, if_true, drop_header,
    read]

theorem exists_of_decodeVersioned {bytes : Bytes} {a : α}
    (read : decodeVersioned c version bytes = .ok a) :
    ∃ body rest, bytes = word32.encode version ++ body ∧ c.decode body = .ok (a, rest) := by
  obtain ⟨found, peeked, next⟩ := bind_eq_ok_iff.1 read
  obtain ⟨body, rfl⟩ := peekVersion_eq_ok_iff.1 peeked
  split at next
  · rename_i same
    obtain rfl := same
    rw [drop_header] at next
    split at next
    · rename_i b rest decoded
      exact ⟨body, rest, rfl, Except.ok.inj next ▸ decoded⟩
    · cases next
  · cases next

/-- A part of versioned bytes lacks some of the version, or has the version and a part of the body. -/
theorem short_or_prefix {front : Bytes} (part : front <+: word32.encode version ++ body) :
    front.length < headerSize ∨ headerSize ≤ front.length
      ∧ ∃ front', front = word32.encode version ++ front' ∧ front' <+: body := by
  by_cases short : front.length < headerSize
  · exact .inl short
  · have header := length_header version
    have longer : (word32.encode version).length ≤ front.length := by omega
    obtain ⟨front', rfl⟩ := List.prefix_of_prefix_length_le (List.prefix_append _ body) part longer
    exact .inr ⟨by omega, front', rfl, (List.prefix_append_right_inj _).1 part⟩

end Body

end TokenLedger.Wire
