import Mathlib.Data.List.Basic
import TokenLedger.Proofs.OutputRef

/-!
Which texts are references. They are a well-formed id, a colon and a run of digits whose value a word
of thirty-two bits holds. Of all other texts the reader names one fault, and the number of the colons
and the place of the first decide which (`parse_by_grammar`).
-/

namespace TokenLedger.OutputRef

/-- What a text says as a reference: the id, one colon, and the place in base ten. -/
def Denotes (s : String) (r : OutputRef) : Prop :=
  WellFormedId r.txId ∧ ∃ place, s.toList = r.txId.toList ++ ':' :: place
    ∧ place ≠ [] ∧ (∀ c ∈ place, Decimal.IsDigit c) ∧ Decimal.value place = r.index.toNat

/-- The fault of a text that is no reference. -/
inductive Fault (s : String) : RefError → Prop where
  | missingSeparator (notOne : s.toList.count ':' ≠ 1) : Fault s (.missingSeparator s)
  | emptyTxId (one : s.toList.count ':' = 1) (first : s.toList.head? = some ':') :
    Fault s (.emptyTxId s)
  | invalidIndex (one : s.toList.count ':' = 1) (later : s.toList.head? ≠ some ':') :
    Fault s (.invalidIndex s)

variable {s : String} {e : RefError} {r : OutputRef}

/-- A text has one fault. -/
theorem Fault.unique {e' : RefError} (fault : Fault s e) (fault' : Fault s e') : e = e' := by
  cases fault with
  | missingSeparator notOne =>
    cases fault' with
    | missingSeparator => rfl
    | emptyTxId one => exact absurd one notOne
    | invalidIndex one => exact absurd one notOne
  | emptyTxId one first =>
    cases fault' with
    | missingSeparator notOne => exact absurd one notOne
    | emptyTxId => rfl
    | invalidIndex _ later => exact absurd first later
  | invalidIndex one later =>
    cases fault' with
    | missingSeparator notOne => exact absurd one notOne
    | emptyTxId _ first => exact absurd first later
    | invalidIndex => rfl

theorem parse_eq_ok_iff_denotes : parse s = .ok r ↔ Denotes s r := by
  simp only [parse_eq_ok_iff, Denotes, Decimal.ofDigits?_eq_some_iff]

/-- The reader names the fault of what it refuses. -/
theorem fault_of_parse_eq_error (refused : parse s = .error e) : Fault s e := by
  unfold parse at refused
  split at refused
  · rename_i txId place two
    obtain ⟨noColon, noColon', chars⟩ := Text.fields_eq_pair_iff.1 two
    have one : s.toList.count ':' = 1 := by
      rw [chars, List.count_append, List.count_cons_self, List.count_eq_zero.2 noColon,
        List.count_eq_zero.2 noColon']
    split at refused
    · rename_i empty
      cases refused
      refine .emptyTxId one ?_
      rw [chars, empty]
      rfl
    · rename_i filled
      have later : s.toList.head? ≠ some ':' := by
        intro first
        obtain ⟨c, others, rfl⟩ := List.exists_cons_of_ne_nil filled
        rw [chars, List.cons_append, List.head?_cons, Option.some.injEq] at first
        exact noColon (first ▸ List.mem_cons_self)
      split at refused
      · cases refused
      · cases refused
        exact .invalidIndex one later
  · rename_i notTwo
    cases refused
    refine .missingSeparator fun one => ?_
    have length := Text.length_fields ':' s.toList
    rw [one] at length
    obtain ⟨txId, place, two⟩ := List.length_eq_two.1 length
    exact notTwo txId place two

theorem parse_eq_error_iff : parse s = .error e ↔ (∀ r, ¬ Denotes s r) ∧ Fault s e := by
  constructor
  · intro refused
    refine ⟨fun r denoted => ?_, fault_of_parse_eq_error refused⟩
    rw [parse_eq_ok_iff_denotes.2 denoted] at refused
    cases refused
  · rintro ⟨none, fault⟩
    cases read : parse s with
    | ok r => exact absurd (parse_eq_ok_iff_denotes.1 read) (none r)
    | error e' => rw [fault.unique (fault_of_parse_eq_error read)]

theorem make_eq_ok_iff {txId : String} {index : UInt32} :
    make txId index = .ok r ↔ WellFormedId txId ∧ r = ⟨txId, index⟩ := by
  rw [← checkTxId_eq_ok_iff, make]
  cases checkTxId txId with
  | ok _ => simp [eq_comm]
  | error e => simp

/-- An id can be part of a reference exactly if the text with it reads back. -/
theorem parse_text_iff : parse r.text = .ok r ↔ WellFormedId r.txId :=
  ⟨fun read => (parse_eq_ok_iff.1 read).1, parse_text⟩

/-- A text is read as a reference exactly if it is a well-formed id, a colon and one or more digits,
with the value that these digits have; leading zeros count for nothing. Any other text is refused: if
it has no colon or several, for that; or else if the colon stands first, for the empty id; or else for
the place. A reference is made of an id and a place exactly if their text reads back as it. -/
theorem parse_by_grammar :
    (∀ s r, parse s = .ok r ↔ Denotes s r)
      ∧ (∀ s e, parse s = .error e ↔ (∀ r, ¬ Denotes s r) ∧ Fault s e)
      ∧ ∀ txId index, ((∃ r, make txId index = .ok r)
          ↔ parse (text ⟨txId, index⟩) = .ok ⟨txId, index⟩)
        ∧ ∀ r, make txId index = .ok r → r = ⟨txId, index⟩ ∧ parse r.text = .ok r := by
  refine ⟨fun s r => parse_eq_ok_iff_denotes, fun s e => parse_eq_error_iff, ?_⟩
  intro txId index
  constructor
  · rw [parse_text_iff]
    exact ⟨fun ⟨_, made⟩ => (make_eq_ok_iff.1 made).1,
      fun formed => ⟨_, make_eq_ok_iff.2 ⟨formed, rfl⟩⟩⟩
  · intro r made
    obtain ⟨formed, rfl⟩ := make_eq_ok_iff.1 made
    exact ⟨rfl, parse_text formed⟩

/-- The number of the colons counts before their place does. -/
example : parse "::7" = .error (.missingSeparator "::7") := by decide +kernel

end TokenLedger.OutputRef
