import TokenLedger.Bytes.Word

/-!
Words as bytes. Every run of bytes is the form of one number (`littleEndian_ofLittleEndian`). With the
most significant byte first, the order of the bytes is the order of the numbers (`compare_bigEndian`),
as it is not with the least significant one first.
-/

namespace TokenLedger.Word

theorem ofLittleEndian_lt (bytes : Bytes) : ofLittleEndian bytes < size bytes.length := by
  induction bytes with
  | nil => exact Nat.one_pos
  | cons b rest ih =>
    have small := b.toNat_lt
    simp only [ofLittleEndian, List.length_cons, size]
    omega

theorem littleEndian_ofLittleEndian (bytes : Bytes) :
    littleEndian bytes.length (ofLittleEndian bytes) = bytes := by
  induction bytes with
  | nil => rfl
  | cons b rest ih =>
    have small := b.toNat_lt
    have low : (b.toNat + 256 * ofLittleEndian rest) % 256 = b.toNat := by omega
    have high : (b.toNat + 256 * ofLittleEndian rest) / 256 = ofLittleEndian rest := by omega
    rw [List.length_cons, ofLittleEndian, littleEndian, low, high, ih, UInt8.ofNat_toNat]

theorem littleEndian_injective {a b : UInt64}
    (same : littleEndian 8 a.toNat = littleEndian 8 b.toNat) : a = b := by
  have read := congrArg ofLittleEndian same
  rw [ofLittleEndian_littleEndian a.toNat_lt, ofLittleEndian_littleEndian b.toNat_lt] at read
  exact UInt64.toNat_inj.1 read

theorem bigEndian_succ (width n : Nat) :
    bigEndian (width + 1) n = bigEndian width (n / 256) ++ [UInt8.ofNat (n % 256)] := by
  rw [bigEndian, littleEndian, List.reverse_cons, bigEndian]

/-- Bytes at the end count where there is no difference before. -/
theorem compare_append_singleton {as bs : Bytes} (same : as.length = bs.length) (a b : UInt8) :
    compare (as ++ [a]) (bs ++ [b]) = (compare as bs).then (compare a b) := by
  induction as generalizing bs with
  | nil =>
    obtain rfl := List.length_eq_zero_iff.1 same.symm
    simp
  | cons a' as ih =>
    cases bs with
    | nil => cases same
    | cons b' bs =>
      simp only [List.cons_append, List.compare_cons_cons, ih (Nat.succ.inj same),
        Ordering.then_assoc]

theorem compare_byte {n m : Nat} (small : n < 256) (small' : m < 256) :
    compare (UInt8.ofNat n) (UInt8.ofNat m) = compare n m := by
  simp only [compare, compareOfLessAndEq, UInt8.lt_iff_toNat_lt, ← UInt8.toNat_inj,
    UInt8.toNat_ofNat', Nat.mod_eq_of_lt small, Nat.mod_eq_of_lt small', Nat.reducePow]

theorem compare_div_mod (n m : Nat) :
    (compare (n / 256) (m / 256)).then (compare (n % 256) (m % 256)) = compare n m := by
  rcases Nat.lt_trichotomy (n / 256) (m / 256) with below | same | above
  · rw [Nat.compare_eq_lt.2 below, Nat.compare_eq_lt.2 (show n < m by omega)]
    rfl
  · rw [Nat.compare_eq_eq.2 same, Nat.compare_eq_ite_lt, Nat.compare_eq_ite_lt]
    have lt : n % 256 < m % 256 ↔ n < m := by omega
    have gt : m % 256 < n % 256 ↔ m < n := by omega
    simp only [lt, gt]
    rfl
  · rw [Nat.compare_eq_gt.2 above, Nat.compare_eq_gt.2 (show m < n by omega)]
    rfl

theorem compare_bigEndian {width n m : Nat} (fits : n < size width) (fits' : m < size width) :
    compare (bigEndian width n) (bigEndian width m) = compare n m := by
  induction width generalizing n m with
  | zero =>
    simp only [size] at fits fits'
    obtain rfl : n = 0 := by omega
    obtain rfl : m = 0 := by omega
    rfl
  | succ width ih =>
    simp only [size] at fits fits'
    have upper : n / 256 < size width := Nat.div_lt_of_lt_mul fits
    have upper' : m / 256 < size width := Nat.div_lt_of_lt_mul fits'
    rw [bigEndian_succ, bigEndian_succ, compare_append_singleton (by simp), ih upper upper',
      compare_byte (Nat.mod_lt _ (by decide)) (Nat.mod_lt _ (by decide)), compare_div_mod]

end TokenLedger.Word
