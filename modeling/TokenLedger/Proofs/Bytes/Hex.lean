import TokenLedger.Bytes.Hex

/-!
Every run of bytes reads back from its hexadecimal text (`decode_encode`).
-/

namespace TokenLedger.Hex

open Text

theorem encodeChar_hexDigit {n : Nat} (small : n < 16) :
    Utf8.encodeChar (hexDigit n) = [UInt8.ofNat (hexDigit n).toNat] := by
  have one := toNat_hexDigit_lt small
  unfold Utf8.encodeChar
  exact if_pos one

theorem readDigit_hexDigit (position : Nat) {n : Nat} (small : n < 16) :
    readDigit position (UInt8.ofNat (hexDigit n).toNat) = .ok n := by
  have one := toNat_hexDigit_lt small
  have same : Char.ofNat (UInt8.ofNat (hexDigit n).toNat).toNat = hexDigit n := by
    rw [UInt8.toNat_ofNat_of_lt' (Nat.lt_trans one (by decide)), Char.ofNat_toNat]
  simp only [readDigit, same, hexDigitValue?_hexDigit small]

theorem byte_of_digits (b : UInt8) : UInt8.ofNat (b.toNat / 16 * 16 + b.toNat % 16) = b := by
  rw [Nat.mul_comm, Nat.div_add_mod, UInt8.ofNat_toNat]

theorem encodeChars_cons (b : UInt8) (bytes : Bytes) :
    Utf8.encodeChars (encodeChars (b :: bytes))
      = UInt8.ofNat (hexDigit (b.toNat / 16)).toNat :: UInt8.ofNat (hexDigit (b.toNat % 16)).toNat
        :: Utf8.encodeChars (encodeChars bytes) := by
  have small : b.toNat < 256 := b.toNat_lt
  have high := encodeChar_hexDigit (n := b.toNat / 16) (by omega)
  have low := encodeChar_hexDigit (n := b.toNat % 16) (by omega)
  simp only [encodeChars, List.flatMap_cons, List.cons_append, List.nil_append, Utf8.encodeChars,
    high, low]

theorem length_encodeChars (bytes : Bytes) :
    (Utf8.encodeChars (encodeChars bytes)).length = 2 * bytes.length := by
  induction bytes with
  | nil => rfl
  | cons b bytes ih =>
    rw [encodeChars_cons, List.length_cons, List.length_cons, ih, List.length_cons]
    omega

theorem decodePairs_encodeChars (position : Nat) (bytes : Bytes) :
    decodePairs position (Utf8.encodeChars (encodeChars bytes)) = .ok bytes := by
  induction bytes generalizing position with
  | nil => rfl
  | cons b bytes ih =>
    have small : b.toNat < 256 := b.toNat_lt
    have first := readDigit_hexDigit position (n := b.toNat / 16) (by omega)
    have second := readDigit_hexDigit (position + 1) (n := b.toNat % 16) (by omega)
    rw [encodeChars_cons, decodePairs, first, second, ih]
    exact congrArg (fun b' => Except.ok (b' :: bytes)) (byte_of_digits b)

/-- Bytes read back from their hexadecimal text. -/
theorem decode_encode (bytes : Bytes) : decode (encode bytes) = .ok bytes := by
  have even : ¬ (Utf8.encodeChars (encodeChars bytes)).length % 2 = 1 := by
    rw [length_encodeChars]
    omega
  unfold decode encode decodeBytes Utf8.encode
  rw [String.toList_ofList, if_neg even, decodePairs_encodeChars]

end TokenLedger.Hex
