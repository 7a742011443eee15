import TokenLedger.OutputRef
import TokenLedger.Proofs.Bytes.Utf8
import TokenLedger.Proofs.Text.Decimal

/-!
The text of a reference. It reads back as the reference if the id can be part of one: then the only
colon in it is the one between the id and the place. If not, it does not read back at all. Even then
the last colon in it is that one, so different references have different texts (`text_injective`).
-/

namespace TokenLedger

namespace Text

/-- Without a separator there is one field. -/
theorem fields_of_notMem {separator : Char} {cs : List Char} (absent : separator ∉ cs) :
    fields separator cs = [cs] := by
  induction cs with
  | nil => rfl
  | cons c rest ih =>
    rw [List.mem_cons, not_or] at absent
    rw [fields, if_neg (Ne.symm absent.1), ih absent.2]

/-- There is one field more than there are separators. -/
theorem length_fields (separator : Char) (cs : List Char) :
    (fields separator cs).length = cs.count separator + 1 := by
  induction cs with
  | nil => rfl
  | cons c rest ih =>
    unfold fields
    by_cases same : c = separator
    · rw [if_pos same, List.length_cons, ih, same, List.count_cons_self]
    · rw [if_neg same, List.count_cons_of_ne same, ← ih]
      cases later : fields separator rest with
      | nil =>
        rw [later] at ih
        cases ih
      | cons first others => rfl

/-- The first separator ends the first field. -/
theorem fields_append_cons {separator : Char} {first : List Char} (absent : separator ∉ first)
    (rest : List Char) :
    fields separator (first ++ separator :: rest) = first :: fields separator rest := by
  induction first with
  | nil => exact if_pos rfl
  | cons c first ih =>
    rw [List.mem_cons, not_or] at absent
    rw [List.cons_append, fields, if_neg (Ne.symm absent.1), ih absent.2]

theorem fields_eq_singleton_iff {separator : Char} {cs field : List Char} :
    fields separator cs = [field] ↔ separator ∉ cs ∧ field = cs := by
  constructor
  · intro one
    have absent : separator ∉ cs := by
      intro member
      have several := List.count_pos_iff.2 member
      have length := length_fields separator cs
      rw [one, List.length_singleton] at length
      omega
    rw [fields_of_notMem absent] at one
    exact ⟨absent, (List.singleton_inj.1 one).symm⟩
  · rintro ⟨absent, rfl⟩
    exact fields_of_notMem absent

theorem fields_eq_pair_iff {separator : Char} {cs first second : List Char} :
    fields separator cs = [first, second]
      ↔ separator ∉ first ∧ separator ∉ second ∧ cs = first ++ separator :: second := by
  constructor
  · intro two
    have member : separator ∈ cs := by
      have length := length_fields separator cs
      rw [two] at length
      exact List.count_pos_iff.1 (Nat.succ.inj length ▸ Nat.one_pos)
    obtain ⟨before, after, rfl, absent⟩ := List.eq_append_cons_of_mem member
    rw [fields_append_cons absent] at two
    obtain ⟨rfl, one⟩ := List.cons.inj two
    obtain ⟨absent', rfl⟩ := fields_eq_singleton_iff.1 one
    exact ⟨absent, absent', rfl⟩
  · rintro ⟨absent, absent', rfl⟩
    rw [fields_append_cons absent, fields_of_notMem absent']

/-- There is one way to cut a list at the first separator in it. -/
theorem append_cons_inj {α : Type} {separator : α} {first first' rest rest' : List α}
    (absent : separator ∉ first) (absent' : separator ∉ first')
    (same : first ++ separator :: rest = first' ++ separator :: rest') :
    first = first' ∧ rest = rest' := by
  induction first generalizing first' with
  | nil =>
    cases first' with
    | nil => exact ⟨rfl, List.tail_eq_of_cons_eq same⟩
    | cons c first' => exact absurd (List.mem_cons.2 (.inl (List.head_eq_of_cons_eq same))) absent'
  | cons c first ih =>
    rw [List.mem_cons, not_or] at absent
    cases first' with
    | nil => exact absurd (List.head_eq_of_cons_eq same).symm absent.1
    | cons c' first' =>
      rw [List.mem_cons, not_or] at absent'
      obtain ⟨rfl, tails⟩ := List.cons.inj same
      obtain ⟨rfl, rests⟩ := ih absent.2 absent'.2 tails
      exact ⟨rfl, rests⟩

end Text

namespace OutputRef

theorem colon_notMem_digits (n : Nat) : ':' ∉ Decimal.digits n := by
  intro member
  have digit := Decimal.isDigit_of_mem_digits member
  revert digit
  decide

theorem readIndex?_eq_some_iff {place : List Char} {index : UInt32} :
    readIndex? place = some index ↔ Decimal.ofDigits? place = some index.toNat := by
  unfold readIndex?
  constructor
  · intro read
    split at read
    · rename_i n number
      split at read
      · rename_i small
        rw [number, ← Option.some.inj read, UInt32.toNat_ofNat_of_lt' small]
      · cases read
    · cases read
  · intro number
    rw [number]
    dsimp only
    rw [if_pos index.toNat_lt, UInt32.ofNat_toNat]

/-- What is read as a reference: a well-formed id, a colon, and digits that stand for the place. -/
theorem parse_eq_ok_iff {s : String} {r : OutputRef} :
    parse s = .ok r ↔ WellFormedId r.txId
      ∧ ∃ place, s.toList = r.txId.toList ++ ':' :: place
        ∧ Decimal.ofDigits? place = some r.index.toNat := by
  constructor
  · intro read
    unfold parse at read
    split at read
    · rename_i txId place two
      obtain ⟨noColon, -, chars⟩ := Text.fields_eq_pair_iff.1 two
      split at read
      · cases read
      · rename_i filled
        split at read
        · rename_i index number
          obtain rfl := Except.ok.inj read
          rw [WellFormedId, String.toList_ofList]
          exact ⟨⟨filled, noColon⟩, place, chars, readIndex?_eq_some_iff.1 number⟩
        · cases read
    · cases read
  · rintro ⟨⟨filled, noColon⟩, place, chars, number⟩
    obtain ⟨-, digitsOnly, -⟩ := Decimal.ofDigits?_eq_some_iff.1 number
    have noColon' : ':' ∉ place := by
      intro member
      have digit := digitsOnly ':' member
      revert digit
      decide
    unfold parse
    rw [Text.fields_eq_pair_iff.2 ⟨noColon, noColon', chars⟩]
    simp only [if_neg filled, readIndex?_eq_some_iff.2 number, String.ofList_toList]

/-- The text of a reference with a well-formed id reads back. -/
theorem parse_text {r : OutputRef} (formed : WellFormedId r.txId) : parse r.text = .ok r :=
  parse_eq_ok_iff.2 ⟨formed, _, String.toList_ofList, Decimal.ofDigits?_digits _⟩

/-- Whether what follows the first colon starts with zeros that add nothing to it. -/
def Padded (s : String) : Prop :=
  ∃ txId place, s.toList = txId ++ ':' :: place ∧ ':' ∉ txId ∧ Decimal.Padded place

/-- What reads as a reference is its text, unless there is padding in the place. -/
theorem eq_text_iff {s : String} {r : OutputRef} (read : parse s = .ok r) :
    s = r.text ↔ ¬ Padded s := by
  obtain ⟨⟨-, noColon⟩, place, chars, number⟩ := parse_eq_ok_iff.1 read
  obtain ⟨filled, digitsOnly, value⟩ := Decimal.ofDigits?_eq_some_iff.1 number
  constructor
  · rintro rfl ⟨txId, place', chars', noColon', padded⟩
    have same : r.txId.toList ++ ':' :: Decimal.digits r.index.toNat = txId ++ ':' :: place' :=
      String.toList_ofList.symm.trans chars'
    obtain ⟨-, rfl⟩ := Text.append_cons_inj noColon noColon' same
    exact Decimal.not_padded_digits _ padded
  · intro plain
    have written := Decimal.digits_value filled digitsOnly fun padded =>
      plain ⟨_, _, chars, noColon, padded⟩
    rw [value] at written
    refine String.toList_injective ?_
    rw [chars, text, String.toList_ofList, OutputRef.chars, written]

/-- The text of a reference is the shortest that reads as it. -/
theorem length_encode_text_le {s : String} {r : OutputRef} (read : parse s = .ok r) :
    (Utf8.encode r.text).length ≤ (Utf8.encode s).length := by
  obtain ⟨-, place, chars, number⟩ := parse_eq_ok_iff.1 read
  obtain ⟨filled, digitsOnly, value⟩ := Decimal.ofDigits?_eq_some_iff.1 number
  have ascii : ∀ cs : List Char, (∀ c ∈ cs, Decimal.IsDigit c) → ∀ c ∈ cs, c.toNat < 0x80 := by
    intro cs digitsOnly c member
    have upper := (digitsOnly c member).2
    omega
  have written : (Decimal.digits r.index.toNat).length ≤ place.length :=
    value ▸ Decimal.length_digits_le (List.length_pos_iff.2 filled) (Decimal.value_lt digitsOnly)
  have here := Utf8.length_encodeChars
    (ascii (Decimal.digits r.index.toNat) fun _ => Decimal.isDigit_of_mem_digits)
  have there := Utf8.length_encodeChars (ascii place digitsOnly)
  have cut : ∀ cs, (Utf8.encodeChars (r.txId.toList ++ ':' :: cs)).length
      = (Utf8.encodeChars (r.txId.toList ++ [':'])).length + (Utf8.encodeChars cs).length := by
    intro cs
    rw [List.append_cons, Utf8.encodeChars_append, List.length_append]
  rw [Utf8.encode, Utf8.encode, chars, text, String.toList_ofList, OutputRef.chars, cut place,
    cut (Decimal.digits _), here, there]
  exact Nat.add_le_add_left written _

/-- The text of any other reference cannot be read: the id is missing, or there is a second colon. -/
theorem parse_text_error {r : OutputRef} (malformed : ¬ WellFormedId r.txId) :
    parse r.text = .error (.emptyTxId r.text) ∨ parse r.text = .error (.missingSeparator r.text) := by
  have chars : r.text.toList = r.txId.toList ++ ':' :: Decimal.digits r.index.toNat :=
    String.toList_ofList
  by_cases colon : ':' ∈ r.txId.toList
  · have fields : 2 < (Text.fields ':' r.text.toList).length := by
      have several := List.count_pos_iff.2 colon
      rw [Text.length_fields, chars, List.count_append, List.count_cons_self]
      omega
    refine .inr ?_
    unfold parse
    split
    · rename_i txId place two
      rw [two] at fields
      exact absurd fields (Nat.lt_irrefl 2)
    · rfl
  · have empty : r.txId.toList = [] :=
      Decidable.byContradiction fun filled => malformed ⟨filled, colon⟩
    have fields : Text.fields ':' r.text.toList = [[], Decimal.digits r.index.toNat] := by
      rw [chars, Text.fields_append_cons colon, Text.fields_of_notMem (colon_notMem_digits _), empty]
    refine .inl ?_
    unfold parse
    rw [fields]
    rfl

theorem exists_parse_text_error {r : OutputRef} (malformed : ¬ WellFormedId r.txId) :
    ∃ e, parse r.text = .error e := by
  rcases parse_text_error malformed with unread | unread
  · exact ⟨_, unread⟩
  · exact ⟨_, unread⟩

theorem index_eq_of_digits {i j : UInt32}
    (same : Decimal.digits i.toNat = Decimal.digits j.toNat) : i = j := by
  have read := Decimal.ofDigits?_digits i.toNat
  rw [same, Decimal.ofDigits?_digits] at read
  exact UInt32.toNat_inj.1 (Option.some.inj read).symm

/-- Different references have different texts, whatever their ids are. -/
theorem text_injective {r s : OutputRef} (same : r.text = s.text) : r = s := by
  have chars : r.chars = s.chars := String.ofList_injective same
  -- From behind, the first colon is the one between the place and the id.
  have absent : ∀ n, ':' ∉ (Decimal.digits n).reverse := by
    intro n member
    exact colon_notMem_digits n (List.mem_reverse.1 member)
  have behind := congrArg List.reverse chars
  simp only [OutputRef.chars, List.reverse_append, List.reverse_cons, List.append_assoc,
    List.singleton_append] at behind
  obtain ⟨places, ids⟩ := Text.append_cons_inj (absent _) (absent _) behind
  have index : r.index = s.index := index_eq_of_digits (List.reverse_inj.1 places)
  have txId : r.txId = s.txId := String.toList_injective (List.reverse_inj.1 ids)
  cases r
  cases s
  simp_all

end OutputRef

end TokenLedger
