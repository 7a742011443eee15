import TokenLedger.Proofs.Bytes.Utf8
import TokenLedger.Proofs.Bytes.Word
import TokenLedger.Proofs.Chain.Run
import TokenLedger.Proofs.OutputRef

/-!
What the bytes behind a digest tell of a ledger. The entries stand there one after the other, without
lengths or marks between them. An id ends at its colon, but nothing ends a place: digits that follow
it may as well be the first bytes of the value. It is told here exactly when two ledgers have the
same bytes (`preimage_ne_iff`), and that this happens, also among ledgers with the same issue
(`one_root_for_two_ledgers`). With ids of one length, as digests in hexadecimal are, it does not: what
is taken from the next entry to make up for the digits would have to be the front of its id, and what
is left of that no id.
-/

namespace TokenLedger.UnspentSet

/-- Every entry is a token output under a well-formed id. -/
def Regular (u : UnspentSet) : Prop := ∀ e ∈ u.toList, WellFormedId e.1.txId ∧ e.2.role = .token

instance (u : UnspentSet) : Decidable u.Regular :=
  inferInstanceAs (Decidable (∀ e ∈ u.toList, WellFormedId e.1.txId ∧ e.2.role = .token))

/-! ## The parts of an entry -/

/-- The digits of the place in a reference. -/
def placeBytes (r : OutputRef) : Bytes := Utf8.encodeChars (Decimal.digits r.index.toNat)

/-- The value and the height of an entry. -/
def numberBytes (entry : Utxo) : Bytes :=
  Word.littleEndian 8 entry.value.toNat ++ Word.littleEndian 8 entry.height.toNat

theorem entryBytes_eq (e : OutputRef × Utxo) :
    entryBytes e
      = Utf8.encode e.1.txId ++ UInt8.ofNat ':'.toNat :: (placeBytes e.1 ++ numberBytes e.2) := by
  have cut : Utf8.encode e.1.text
      = Utf8.encode e.1.txId ++ UInt8.ofNat ':'.toNat :: placeBytes e.1 := by
    rw [Utf8.encode, OutputRef.text, String.toList_ofList, OutputRef.chars,
      Utf8.encodeChars_append]
    rfl
  rw [entryBytes, cut, numberBytes]
  simp

theorem colon_notMem_encode {txId : String} (formed : WellFormedId txId) :
    UInt8.ofNat ':'.toNat ∉ Utf8.encode txId :=
  Utf8.notMem_encodeChars (by decide) formed.2

theorem placeBytes_injective {r s : OutputRef} (same : placeBytes r = placeBytes s) :
    r.index = s.index :=
  OutputRef.index_eq_of_digits (Utf8.encodeChars_injective same)

/-- A place has at most ten digits. -/
theorem length_placeBytes (r : OutputRef) :
    1 ≤ (placeBytes r).length ∧ (placeBytes r).length ≤ 10 := by
  have ascii : ∀ c ∈ Decimal.digits r.index.toNat, c.toNat < 0x80 := by
    intro c member
    have digit := Decimal.isDigit_of_mem_digits member
    unfold Decimal.IsDigit at digit
    omega
  rw [placeBytes, Utf8.length_encodeChars ascii]
  refine ⟨List.length_pos_iff.2 (Decimal.digits_ne_nil _), ?_⟩
  have small := r.index.toNat_lt
  exact Decimal.length_digits_le (by decide) (by omega)

@[simp] theorem length_numberBytes (entry : Utxo) : (numberBytes entry).length = 16 := by
  simp [numberBytes]

theorem numberBytes_injective {x y : Utxo} (same : numberBytes x = numberBytes y) :
    x.value = y.value ∧ x.height = y.height := by
  obtain ⟨values, heights⟩ := List.append_inj same (by simp)
  exact ⟨Word.littleEndian_injective values, Word.littleEndian_injective heights⟩

/-! ## Reading entries off the bytes -/

/-- After some shared entries, two ledgers go on with different ones and yet with the same bytes. The
entries are outputs of one transaction; the place of the one in `bs` has further digits, and these
are read as the first bytes of the numbers of the one in `as`. -/
def Misread (as bs : List (OutputRef × Utxo)) : Prop :=
  ∃ shared e later e' later' digits, as = shared ++ e :: later ∧ bs = shared ++ e' :: later'
    ∧ e'.1.txId = e.1.txId ∧ digits ≠ [] ∧ placeBytes e'.1 = placeBytes e.1 ++ digits
    ∧ numberBytes e.2 ++ later.flatMap entryBytes
      = digits ++ (numberBytes e'.2 ++ later'.flatMap entryBytes)

theorem Misread.flatMap_eq {as bs : List (OutputRef × Utxo)} (misread : Misread as bs) :
    as.flatMap entryBytes = bs.flatMap entryBytes := by
  obtain ⟨shared, e, later, e', later', digits, rfl, rfl, ids, _, places, numbers⟩ := misread
  simp only [List.flatMap_append, List.flatMap_cons, entryBytes_eq, ids, places,
    List.append_assoc, List.cons_append, numbers]

theorem Misread.cons {as bs : List (OutputRef × Utxo)} (misread : Misread as bs)
    (e : OutputRef × Utxo) : Misread (e :: as) (e :: bs) := by
  obtain ⟨shared, f, later, f', later', digits, rfl, rfl, rest⟩ := misread
  exact ⟨e :: shared, f, later, f', later', digits, rfl, rfl, rest⟩

theorem eq_of_parts {e e' : OutputRef × Utxo} (ids : e.1.txId = e'.1.txId)
    (places : placeBytes e.1 = placeBytes e'.1) (numbers : numberBytes e.2 = numberBytes e'.2)
    (roles : e.2.role = e'.2.role) : e = e' := by
  obtain ⟨⟨txId, index⟩, ⟨value, height, role⟩⟩ := e
  obtain ⟨⟨txId', index'⟩, ⟨value', height', role'⟩⟩ := e'
  obtain ⟨values, heights⟩ := numberBytes_injective numbers
  have indices := placeBytes_injective places
  simp_all

theorem entryBytes_ne_nil (e : OutputRef × Utxo) : entryBytes e ≠ [] := by
  rw [entryBytes_eq]
  simp

/-- Entries with the same bytes are the same, or are misread one way or the other. -/
theorem eq_or_misread_of_flatMap_eq {as bs : List (OutputRef × Utxo)}
    (regular : ∀ e ∈ as, WellFormedId e.1.txId ∧ e.2.role = .token)
    (regular' : ∀ e ∈ bs, WellFormedId e.1.txId ∧ e.2.role = .token)
    (same : as.flatMap entryBytes = bs.flatMap entryBytes) :
    as = bs ∨ Misread as bs ∨ Misread bs as := by
  induction as generalizing bs with
  | nil =>
    cases bs with
    | nil => exact .inl rfl
    | cons e' bs =>
      rw [List.flatMap_nil, List.flatMap_cons] at same
      exact absurd (List.append_eq_nil_iff.1 same.symm).1 (entryBytes_ne_nil e')
  | cons e as ih =>
    cases bs with
    | nil =>
      rw [List.flatMap_nil, List.flatMap_cons] at same
      exact absurd (List.append_eq_nil_iff.1 same).1 (entryBytes_ne_nil e)
    | cons e' bs =>
      obtain ⟨formed, token⟩ := regular e List.mem_cons_self
      obtain ⟨formed', token'⟩ := regular' e' List.mem_cons_self
      simp only [List.flatMap_cons, entryBytes_eq, List.append_assoc, List.cons_append] at same
      -- The ids end at the first colon; what comes next may be cut after either place.
      obtain ⟨ids, rest⟩ :=
        Text.append_cons_inj (colon_notMem_encode formed) (colon_notMem_encode formed') same
      have ids : e.1.txId = e'.1.txId := Utf8.encode_injective ids
      by_cases places : placeBytes e.1 = placeBytes e'.1
      · rw [places] at rest
        obtain ⟨numbers, later⟩ := List.append_inj (List.append_cancel_left rest) (by simp)
        obtain rfl := eq_of_parts ids places numbers (token.trans token'.symm)
        have tails := ih (fun f member => regular f (List.mem_cons_of_mem _ member))
          (fun f member => regular' f (List.mem_cons_of_mem _ member)) later
        exact tails.imp (congrArg (e :: ·))
          (Or.imp (fun misread => misread.cons e) fun misread => misread.cons e)
      · rcases List.append_eq_append_iff.1 rest with
          ⟨digits, further, numbers⟩ | ⟨digits, further, numbers⟩
        · refine .inr (.inl ⟨[], e, as, e', bs, digits, rfl, rfl, ids.symm, ?_, further, numbers⟩)
          rintro rfl
          exact places (further.trans (List.append_nil _)).symm
        · refine .inr (.inr ⟨[], e', bs, e, as, digits, rfl, rfl, ids, ?_, further, numbers⟩)
          rintro rfl
          exact places (further.trans (List.append_nil _))

/-! ## Ids that keep entries apart -/

/-- Ids are of at least nine bytes, and none is the end of another, as is the case where all of them
have one length. -/
structure IdsApart (as bs : List (OutputRef × Utxo)) : Prop where
  long : ∀ e ∈ as ++ bs, 9 ≤ (Utf8.encode e.1.txId).length
  noEnd : ∀ e ∈ as ++ bs, ∀ f ∈ as ++ bs,
    Utf8.encode e.1.txId <:+ Utf8.encode f.1.txId → e.1.txId = f.1.txId

theorem IdsApart.symm {as bs : List (OutputRef × Utxo)} (apart : IdsApart as bs) :
    IdsApart bs as where
  long := fun e member => apart.long e (List.perm_append_comm.mem_iff.1 member)
  noEnd := fun e member f member' => apart.noEnd e (List.perm_append_comm.mem_iff.1 member) f
    (List.perm_append_comm.mem_iff.1 member')

/-- Further digits push the rest of the bytes into the next id. -/
theorem IdsApart.not_misread {as bs : List (OutputRef × Utxo)} (apart : IdsApart as bs)
    (regular : ∀ e ∈ as, WellFormedId e.1.txId ∧ e.2.role = .token)
    (regular' : ∀ e ∈ bs, WellFormedId e.1.txId ∧ e.2.role = .token) : ¬ Misread as bs := by
  rintro ⟨shared, e, later, e', later', digits, rfl, rfl, _, some, places, numbers⟩
  have more := congrArg List.length places
  have atMost := (length_placeBytes e'.1).2
  have atLeast := (length_placeBytes e.1).1
  have few := List.length_pos_iff.2 some
  rw [List.length_append] at more
  -- As many bytes as there are further digits are missing at the front of what comes later.
  obtain ⟨front, whole, size⟩ : ∃ front, later.flatMap entryBytes
      = front ++ later'.flatMap entryBytes ∧ front.length = digits.length := by
    have cut := congrArg (List.drop 16) numbers
    rw [List.drop_left' (length_numberBytes e.2), ← List.append_assoc, List.drop_append_of_le_length
      (by rw [List.length_append, length_numberBytes]; omega)] at cut
    exact ⟨_, cut, by rw [List.length_drop, List.length_append, length_numberBytes]; omega⟩
  cases later with
  | nil =>
    have nothing := congrArg List.length whole
    rw [List.flatMap_nil, List.length_append, List.length_nil] at nothing
    omega
  | cons f fs =>
    have listed : f ∈ shared ++ e :: f :: fs := by simp
    obtain ⟨formed, _⟩ := regular f listed
    have long := apart.long f (List.mem_append_left _ listed)
    simp only [List.flatMap_cons, entryBytes_eq f, List.append_assoc, List.cons_append] at whole
    obtain ⟨left, ids, rest⟩ : ∃ left, Utf8.encode f.1.txId = front ++ left
        ∧ later'.flatMap entryBytes = left ++ UInt8.ofNat ':'.toNat
          :: (placeBytes f.1 ++ (numberBytes f.2 ++ fs.flatMap entryBytes)) := by
      rcases List.append_eq_append_iff.1 whole with ⟨surplus, front_eq, rest⟩ | inside
      · have sizes := congrArg List.length front_eq
        rw [List.length_append] at sizes
        obtain rfl : surplus = [] := List.length_eq_zero_iff.1 (by omega)
        exact ⟨[], by simpa using front_eq.symm, by simpa using rest.symm⟩
      · exact inside
    have formed_left : UInt8.ofNat ':'.toNat ∉ left := fun member =>
      colon_notMem_encode formed (ids ▸ List.mem_append_right front member)
    cases later' with
    | nil => simp at rest
    | cons f' fs' =>
      have listed' : f' ∈ shared ++ e' :: f' :: fs' := by simp
      obtain ⟨formed', _⟩ := regular' f' listed'
      simp only [List.flatMap_cons, entryBytes_eq f', List.append_assoc, List.cons_append] at rest
      -- What is left of the id is the whole of the next one there, and so no shorter.
      obtain ⟨next, _⟩ := Text.append_cons_inj (colon_notMem_encode formed') formed_left rest
      have ending : Utf8.encode f'.1.txId <:+ Utf8.encode f.1.txId :=
        ⟨front, by rw [ids, next]⟩
      have equal := apart.noEnd f' (List.mem_append_right _ listed') f
        (List.mem_append_left _ listed) ending
      have sizes := congrArg List.length ids
      rw [List.length_append, ← next, equal] at sizes
      omega

/-! ## Ledgers -/

/-- Different ledgers have different bytes unless one of them can be misread as the other, which ids
that keep the entries apart rule out. -/
theorem preimage_ne_iff {u v : UnspentSet} (regular : u.Regular) (regular' : v.Regular)
    (differ : u ≠ v) :
    (u.preimage ≠ v.preimage ↔ ¬ Misread u.toList v.toList ∧ ¬ Misread v.toList u.toList)
      ∧ (IdsApart u.toList v.toList → u.preimage ≠ v.preimage) := by
  have iff : u.preimage ≠ v.preimage
      ↔ ¬ Misread u.toList v.toList ∧ ¬ Misread v.toList u.toList := by
    constructor
    · intro distinct
      exact ⟨fun misread => distinct misread.flatMap_eq,
        fun misread => distinct misread.flatMap_eq.symm⟩
    · rintro ⟨forth, back⟩ same
      rcases eq_or_misread_of_flatMap_eq regular regular' same with same | misread | misread
      · exact differ (SortedMap.ext same)
      · exact forth misread
      · exact back misread
  exact ⟨iff, fun apart => iff.2
    ⟨apart.not_misread regular regular', apart.symm.not_misread regular' regular⟩⟩

/-- Ids of nine bytes, whose outputs differ in their places. -/
theorem preimage_ne_with_ids_of_one_length :
    let u : UnspentSet := SortedMap.ofList
      [(⟨"id-number", 1⟩, ⟨48, 10, .token⟩), (⟨"same-size", 0⟩, ⟨1, 10, .token⟩)]
    let v : UnspentSet := SortedMap.ofList
      [(⟨"id-number", 10⟩, ⟨48, 10, .token⟩), (⟨"same-size", 0⟩, ⟨1, 10, .token⟩)]
    u.Regular ∧ v.Regular ∧ u ≠ v ∧ IdsApart u.toList v.toList ∧ u.preimage ≠ v.preimage := by
  intro u v
  have regular : u.Regular := by decide +kernel
  have regular' : v.Regular := by decide +kernel
  have differ : u ≠ v := by decide +kernel
  have apart : IdsApart u.toList v.toList := ⟨by decide +kernel, by decide +kernel⟩
  exact ⟨regular, regular', differ, apart, (preimage_ne_iff regular regular' differ).2 apart⟩

/-- Two ledgers from the same issue that end at the same height. What is entered in the first as
place 1 with a value whose lowest byte is the digit 0, is entered in the second as place 10. -/
theorem one_root_for_two_ledgers :
    let g : Genesis := ⟨"a", 0x6262626262626262⟩
    let c := (Chain.start g).run [.raw ⟨g.height, "h", "",
      [⟨"a", [], [⟨1, none⟩, ⟨48, none⟩]⟩, ⟨"bb", [⟨"a", 0⟩], [⟨1, none⟩]⟩]⟩]
    let d := (Chain.start g).run [.raw ⟨g.height, "h", "",
      [⟨"a", [], ⟨1, none⟩ :: List.replicate 9 ⟨0, none⟩ ++ [⟨0x6200000000000000, none⟩]⟩,
        ⟨"b", [⟨"a", 0⟩], [⟨1, none⟩]⟩]⟩]
    c.store.Regular ∧ d.store.Regular ∧ c.store ≠ d.store
      ∧ c.store.preimage = d.store.preimage ∧ c.store.root = d.store.root := by
  decide +kernel

end TokenLedger.UnspentSet
