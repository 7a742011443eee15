import TokenLedger.Bytes.Utf8
import TokenLedger.Proofs.Steps

/-!
Text reads back from its UTF-8 form and from no other bytes (`decode_eq_ok_iff`), so different texts
have different bytes (`encode_injective`). The four lengths of a character are gone through one by
one: in each the bytes are in the ranges that the reader asks for, and put together again they are the
character; and what bytes in these ranges make up is written with just as many bytes.
-/

namespace TokenLedger.Utf8

theorem toNat_byte {n : Nat} (small : n < 256) : (UInt8.ofNat n).toNat = n := by
  rw [UInt8.toNat_ofNat']
  exact Nat.mod_eq_of_lt small

/-- No character is a surrogate, and none lies above the last one. -/
theorem toNat_char_cases (c : Char) :
    c.toNat < 0xD800 ∨ 0xDFFF < c.toNat ∧ c.toNat < 0x110000 := c.valid

section

variable {c : Char} {cs : List Char} {rest : Bytes}

theorem decodeFrom_one (small : c.toNat < 0x80) (start : Nat)
    (later : decodeFrom (start + 1) rest = .ok cs) :
    decodeFrom start (UInt8.ofNat c.toNat :: rest) = .ok (c :: cs) := by
  have b0 : (UInt8.ofNat c.toNat).toNat = c.toNat := toNat_byte (by omega)
  rw [decodeFrom.eq_def]
  simp only [b0, if_pos small, later, Char.ofNat_toNat]
  rfl

theorem decodeFrom_two (large : ¬ c.toNat < 0x80) (small : c.toNat < 0x800) (start : Nat)
    (later : decodeFrom (start + 2) rest = .ok cs) :
    decodeFrom start
        (UInt8.ofNat (0xC0 + c.toNat / 64) :: UInt8.ofNat (0x80 + c.toNat % 64) :: rest)
      = .ok (c :: cs) := by
  have b0 : (UInt8.ofNat (0xC0 + c.toNat / 64)).toNat = 0xC0 + c.toNat / 64 :=
    toNat_byte (by omega)
  have b1 : (UInt8.ofNat (0x80 + c.toNat % 64)).toNat = 0x80 + c.toNat % 64 :=
    toNat_byte (by omega)
  have notOne : ¬ 0xC0 + c.toNat / 64 < 0x80 := by omega
  have lead : 0xC2 ≤ 0xC0 + c.toNat / 64 ∧ 0xC0 + c.toNat / 64 ≤ 0xDF := by omega
  have second : IsContinuation (0x80 + c.toNat % 64) := by
    unfold IsContinuation
    omega
  have whole : (0xC0 + c.toNat / 64 - 0xC0) * 64 + (0x80 + c.toNat % 64 - 0x80) = c.toNat := by
    omega
  rw [decodeFrom]
  simp only [b0, b1, if_neg notOne, if_pos lead, if_pos second, whole, later, Char.ofNat_toNat]
  rfl

theorem decodeFrom_three (large : ¬ c.toNat < 0x800) (small : c.toNat < 0x10000) (start : Nat)
    (later : decodeFrom (start + 3) rest = .ok cs) :
    decodeFrom start
        (UInt8.ofNat (0xE0 + c.toNat / 4096) :: UInt8.ofNat (0x80 + c.toNat / 64 % 64)
          :: UInt8.ofNat (0x80 + c.toNat % 64) :: rest)
      = .ok (c :: cs) := by
  have noSurrogate := toNat_char_cases c
  have b0 : (UInt8.ofNat (0xE0 + c.toNat / 4096)).toNat = 0xE0 + c.toNat / 4096 :=
    toNat_byte (by omega)
  have b1 : (UInt8.ofNat (0x80 + c.toNat / 64 % 64)).toNat = 0x80 + c.toNat / 64 % 64 :=
    toNat_byte (by omega)
  have b2 : (UInt8.ofNat (0x80 + c.toNat % 64)).toNat = 0x80 + c.toNat % 64 :=
    toNat_byte (by omega)
  have notOne : ¬ 0xE0 + c.toNat / 4096 < 0x80 := by omega
  have notTwo : ¬ (0xC2 ≤ 0xE0 + c.toNat / 4096 ∧ 0xE0 + c.toNat / 4096 ≤ 0xDF) := by omega
  have lead : 0xE0 ≤ 0xE0 + c.toNat / 4096 ∧ 0xE0 + c.toNat / 4096 ≤ 0xEF := by omega
  -- The reader narrows the second byte after 0xE0 and 0xED: no shorter form, no surrogate.
  have second : FollowsLead3 (0xE0 + c.toNat / 4096) (0x80 + c.toNat / 64 % 64) := by
    unfold FollowsLead3 IsContinuation
    split
    · omega
    · split <;> omega
  have third : IsContinuation (0x80 + c.toNat % 64) := by
    unfold IsContinuation
    omega
  have whole : (0xE0 + c.toNat / 4096 - 0xE0) * 4096 + (0x80 + c.toNat / 64 % 64 - 0x80) * 64
      + (0x80 + c.toNat % 64 - 0x80) = c.toNat := by omega
  rw [decodeFrom]
  simp only [b0, b1, b2, if_neg notOne, if_neg notTwo, if_pos lead, if_pos second, if_pos third,
    whole, later, Char.ofNat_toNat]
  rfl

theorem decodeFrom_four (large : ¬ c.toNat < 0x10000) (start : Nat)
    (later : decodeFrom (start + 4) rest = .ok cs) :
    decodeFrom start
        (UInt8.ofNat (0xF0 + c.toNat / 262144) :: UInt8.ofNat (0x80 + c.toNat / 4096 % 64)
          :: UInt8.ofNat (0x80 + c.toNat / 64 % 64) :: UInt8.ofNat (0x80 + c.toNat % 64) :: rest)
      = .ok (c :: cs) := by
  have last := toNat_char_cases c
  have b0 : (UInt8.ofNat (0xF0 + c.toNat / 262144)).toNat = 0xF0 + c.toNat / 262144 :=
    toNat_byte (by omega)
  have b1 : (UInt8.ofNat (0x80 + c.toNat / 4096 % 64)).toNat = 0x80 + c.toNat / 4096 % 64 :=
    toNat_byte (by omega)
  have b2 : (UInt8.ofNat (0x80 + c.toNat / 64 % 64)).toNat = 0x80 + c.toNat / 64 % 64 :=
    toNat_byte (by omega)
  have b3 : (UInt8.ofNat (0x80 + c.toNat % 64)).toNat = 0x80 + c.toNat % 64 :=
    toNat_byte (by omega)
  have notOne : ¬ 0xF0 + c.toNat / 262144 < 0x80 := by omega
  have notTwo : ¬ (0xC2 ≤ 0xF0 + c.toNat / 262144 ∧ 0xF0 + c.toNat / 262144 ≤ 0xDF) := by omega
  have notThree : ¬ (0xE0 ≤ 0xF0 + c.toNat / 262144 ∧ 0xF0 + c.toNat / 262144 ≤ 0xEF) := by omega
  have lead : 0xF0 ≤ 0xF0 + c.toNat / 262144 ∧ 0xF0 + c.toNat / 262144 ≤ 0xF4 := by omega
  -- Here it does so after 0xF0 and 0xF4: no shorter form, nothing above the last character.
  have second : FollowsLead4 (0xF0 + c.toNat / 262144) (0x80 + c.toNat / 4096 % 64) := by
    unfold FollowsLead4 IsContinuation
    split
    · omega
    · split <;> omega
  have third : IsContinuation (0x80 + c.toNat / 64 % 64) := by
    unfold IsContinuation
    omega
  have fourth : IsContinuation (0x80 + c.toNat % 64) := by
    unfold IsContinuation
    omega
  have whole : (0xF0 + c.toNat / 262144 - 0xF0) * 262144
      + (0x80 + c.toNat / 4096 % 64 - 0x80) * 4096 + (0x80 + c.toNat / 64 % 64 - 0x80) * 64
      + (0x80 + c.toNat % 64 - 0x80) = c.toNat := by omega
  rw [decodeFrom]
  simp only [b0, b1, b2, b3, if_neg notOne, if_neg notTwo, if_neg notThree, if_pos lead,
    if_pos second, if_pos third, if_pos fourth, whole, later, Char.ofNat_toNat]
  rfl

end

/-- Characters read back from their bytes, wherever these start. -/
theorem decodeFrom_encodeChars (cs : List Char) (start : Nat) :
    decodeFrom start (encodeChars cs) = .ok cs := by
  induction cs generalizing start with
  | nil => rfl
  | cons c cs ih =>
    have cut : encodeChars (c :: cs) = encodeChar c ++ encodeChars cs := rfl
    rw [cut]
    unfold encodeChar
    dsimp only
    split
    · rename_i small
      exact decodeFrom_one small start (ih _)
    · rename_i notOne
      split
      · rename_i small
        exact decodeFrom_two notOne small start (ih _)
      · rename_i notTwo
        split
        · rename_i small
          exact decodeFrom_three notTwo small start (ih _)
        · rename_i large
          exact decodeFrom_four large start (ih _)

/-- A text reads back from its bytes. -/
theorem decode_encode (s : String) : decode (encode s) = .ok s := by
  simp only [decode, encode, decodeFrom_encodeChars]
  exact congrArg Except.ok String.ofList_toList

theorem toNat_ofNat {n : Nat} (valid : n.isValidChar) : (Char.ofNat n).toNat = n := by
  rw [Char.ofNat, dif_pos valid]
  rfl

theorem byte_eq {b : UInt8} {n : Nat} (same : b.toNat = n) : UInt8.ofNat n = b := by
  rw [← same, UInt8.ofNat_toNat]

section

variable {b0 b1 b2 b3 : UInt8}

theorem encodeChar_ofNat_one (lead : b0.toNat < 0x80) : encodeChar (Char.ofNat b0.toNat) = [b0] := by
  have number : (Char.ofNat b0.toNat).toNat = b0.toNat := toNat_ofNat (.inl (by omega))
  rw [encodeChar, number, if_pos lead, UInt8.ofNat_toNat]

theorem encodeChar_ofNat_two (lead : 0xC2 ≤ b0.toNat ∧ b0.toNat ≤ 0xDF)
    (second : IsContinuation b1.toNat) :
    encodeChar (Char.ofNat ((b0.toNat - 0xC0) * 64 + (b1.toNat - 0x80))) = [b0, b1] := by
  unfold IsContinuation at second
  have number := toNat_ofNat (n := (b0.toNat - 0xC0) * 64 + (b1.toNat - 0x80)) (.inl (by omega))
  unfold encodeChar
  simp only [number]
  rw [if_neg (by omega), if_pos (by omega), byte_eq (b := b0) (by omega),
    byte_eq (b := b1) (by omega)]

theorem encodeChar_ofNat_three (lead : 0xE0 ≤ b0.toNat ∧ b0.toNat ≤ 0xEF)
    (second : FollowsLead3 b0.toNat b1.toNat) (third : IsContinuation b2.toNat) :
    encodeChar (Char.ofNat ((b0.toNat - 0xE0) * 4096 + (b1.toNat - 0x80) * 64
      + (b2.toNat - 0x80))) = [b0, b1, b2] := by
  unfold IsContinuation at third
  -- The narrowed second byte is what makes this the shortest form, and no surrogate.
  have narrowed : 0x80 ≤ b1.toNat ∧ b1.toNat ≤ 0xBF ∧ (b0.toNat = 0xE0 → 0xA0 ≤ b1.toNat)
      ∧ (b0.toNat = 0xED → b1.toNat ≤ 0x9F) := by
    unfold FollowsLead3 IsContinuation at second
    split at second
    · omega
    · split at second <;> omega
  have valid : Nat.isValidChar
      ((b0.toNat - 0xE0) * 4096 + (b1.toNat - 0x80) * 64 + (b2.toNat - 0x80)) := by
    unfold Nat.isValidChar
    omega
  have number := toNat_ofNat valid
  unfold encodeChar
  simp only [number]
  rw [if_neg (by omega), if_neg (by omega), if_pos (by omega), byte_eq (b := b0) (by omega),
    byte_eq (b := b1) (by omega), byte_eq (b := b2) (by omega)]

theorem encodeChar_ofNat_four (lead : 0xF0 ≤ b0.toNat ∧ b0.toNat ≤ 0xF4)
    (second : FollowsLead4 b0.toNat b1.toNat) (third : IsContinuation b2.toNat)
    (fourth : IsContinuation b3.toNat) :
    encodeChar (Char.ofNat ((b0.toNat - 0xF0) * 262144 + (b1.toNat - 0x80) * 4096
      + (b2.toNat - 0x80) * 64 + (b3.toNat - 0x80))) = [b0, b1, b2, b3] := by
  unfold IsContinuation at third fourth
  have narrowed : 0x80 ≤ b1.toNat ∧ b1.toNat ≤ 0xBF ∧ (b0.toNat = 0xF0 → 0x90 ≤ b1.toNat)
      ∧ (b0.toNat = 0xF4 → b1.toNat ≤ 0x8F) := by
    unfold FollowsLead4 IsContinuation at second
    split at second
    · omega
    · split at second <;> omega
  have valid : Nat.isValidChar ((b0.toNat - 0xF0) * 262144 + (b1.toNat - 0x80) * 4096
      + (b2.toNat - 0x80) * 64 + (b3.toNat - 0x80)) := by
    unfold Nat.isValidChar
    omega
  have number := toNat_ofNat valid
  unfold encodeChar
  simp only [number]
  rw [if_neg (by omega), if_neg (by omega), if_neg (by omega), byte_eq (b := b0) (by omega),
    byte_eq (b := b1) (by omega), byte_eq (b := b2) (by omega), byte_eq (b := b3) (by omega)]

end

/-- A character and what is read after it come from their own bytes. -/
theorem encodeChars_of_read {c : Char} {first rest : Bytes} {next : Except Error (List Char)}
    {cs : List Char} (own : encodeChar c = first)
    (later : ∀ {ds}, next = .ok ds → encodeChars ds = rest)
    (read : (next >>= fun ds => pure (c :: ds)) = .ok cs) : encodeChars cs = first ++ rest := by
  obtain ⟨ds, tail, same⟩ := bind_eq_ok_iff.1 read
  rw [← Except.ok.inj same, ← own, ← later tail]
  rfl

theorem encodeChars_of_decodeFrom {start : Nat} {bytes : Bytes} {cs : List Char}
    (read : decodeFrom start bytes = .ok cs) : encodeChars cs = bytes := by
  fun_induction decodeFrom start bytes generalizing cs with
  | case1 => exact Except.ok.inj read ▸ rfl
  | case2 =>
    rename_i one later
    exact encodeChars_of_read (encodeChar_ofNat_one one) later read
  | case4 =>
    rename_i two _ _ _ second later
    exact encodeChars_of_read (encodeChar_ofNat_two two second) later read
  | case8 =>
    rename_i three _ _ second _ _ _ third later
    exact encodeChars_of_read (encodeChar_ofNat_three three second third) later read
  | case14 =>
    rename_i four _ _ second _ _ third _ _ _ fourth later
    exact encodeChars_of_read (encodeChar_ofNat_four four second third fourth) later read
  -- In every other case the bytes were refused.
  | _ => cases read

theorem decode_eq_ok_iff {bytes : Bytes} {s : String} :
    decode bytes = .ok s ↔ bytes = encode s := by
  constructor
  · intro read
    obtain ⟨cs, chars, same⟩ := bind_eq_ok_iff.1 read
    rw [← Except.ok.inj same, encode, String.toList_ofList, encodeChars_of_decodeFrom chars]
  · rintro rfl
    exact decode_encode s

theorem encodeChars_injective {cs ds : List Char} (same : encodeChars cs = encodeChars ds) :
    cs = ds := by
  have read := decodeFrom_encodeChars cs 0
  rw [same, decodeFrom_encodeChars] at read
  exact (Except.ok.inj read).symm

/-- Different texts have different bytes. -/
theorem encode_injective {s t : String} (same : encode s = encode t) : s = t :=
  String.toList_injective (encodeChars_injective same)

theorem encodeChars_append (cs ds : List Char) :
    encodeChars (cs ++ ds) = encodeChars cs ++ encodeChars ds :=
  List.flatMap_append

/-- The byte of a character of one byte occurs in no other character. -/
theorem eq_of_mem_encodeChar {a c : Char} (ascii : a.toNat < 0x80)
    (member : UInt8.ofNat a.toNat ∈ encodeChar c) : c = a := by
  have last := toNat_char_cases c
  have byte : (UInt8.ofNat a.toNat).toNat = a.toNat := toNat_byte (by omega)
  have large : ∀ n, 0x80 ≤ n → n < 256 → UInt8.ofNat a.toNat ≠ UInt8.ofNat n := by
    intro n lower upper same
    have numbers := congrArg UInt8.toNat same
    rw [byte, toNat_byte upper] at numbers
    omega
  unfold encodeChar at member
  dsimp only at member
  split at member
  · rename_i small
    have same := congrArg UInt8.toNat (List.mem_singleton.1 member)
    rw [byte, toNat_byte (by omega)] at same
    exact Char.toNat_inj.1 same.symm
  · split at member
    · simp only [List.mem_cons, List.not_mem_nil, or_false] at member
      rcases member with same | same <;>
        exact absurd same (large _ (by omega) (by omega))
    · split at member
      · simp only [List.mem_cons, List.not_mem_nil, or_false] at member
        rcases member with same | same | same <;>
          exact absurd same (large _ (by omega) (by omega))
      · simp only [List.mem_cons, List.not_mem_nil, or_false] at member
        rcases member with same | same | same | same <;>
          exact absurd same (large _ (by omega) (by omega))

theorem notMem_encodeChars {a : Char} (ascii : a.toNat < 0x80) {cs : List Char} (absent : a ∉ cs) :
    UInt8.ofNat a.toNat ∉ encodeChars cs := by
  intro member
  obtain ⟨c, listed, byte⟩ := List.mem_flatMap.1 member
  rw [eq_of_mem_encodeChar ascii byte] at listed
  exact absent listed

/-- A text of characters of one byte has as many bytes as characters. -/
theorem length_encodeChars {cs : List Char} (ascii : ∀ c ∈ cs, c.toNat < 0x80) :
    (encodeChars cs).length = cs.length := by
  induction cs with
  | nil => rfl
  | cons c cs ih =>
    have one : encodeChar c = [UInt8.ofNat c.toNat] := if_pos (ascii c List.mem_cons_self)
    have later := ih fun d member => ascii d (List.mem_cons_of_mem _ member)
    rw [encodeChars, List.flatMap_cons, one, List.length_append, ← encodeChars, later, Nat.add_comm]
    rfl

end TokenLedger.Utf8
