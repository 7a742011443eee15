import TokenLedger.Bytes.Utf8

/-!
Words as bytes: least significant byte first for records, most significant byte first where the
order of the bytes has to be the order of the numbers.
-/

namespace TokenLedger.Word

/-- The lowest `width` bytes of a number, least significant first. -/
def littleEndian : (width n : Nat) → Bytes
  | 0, _ => []
  | width + 1, n => UInt8.ofNat (n % 256) :: littleEndian width (n / 256)

/-- The number that bytes stand for, least significant first. -/
def ofLittleEndian : Bytes → Nat
  | [] => 0
  | b :: rest => b.toNat + 256 * ofLittleEndian rest

/-- The lowest `width` bytes of a number, most significant first. -/
def bigEndian (width n : Nat) : Bytes := (littleEndian width n).reverse

/-- The number that bytes stand for, most significant first. -/
def ofBigEndian (bytes : Bytes) : Nat := ofLittleEndian bytes.reverse

/-- How many numbers fit into `width` bytes. -/
def size : (width : Nat) → Nat
  | 0 => 1
  | width + 1 => 256 * size width

@[simp] theorem length_littleEndian (width n : Nat) : (littleEndian width n).length = width := by
  induction width generalizing n with
  | zero => rfl
  | succ width ih => simp [littleEndian, ih]

@[simp] theorem length_bigEndian (width n : Nat) : (bigEndian width n).length = width := by
  simp [bigEndian]

/-- A number that fits reads back. -/
theorem ofLittleEndian_littleEndian {width n : Nat} (fits : n < size width) :
    ofLittleEndian (littleEndian width n) = n := by
  induction width generalizing n with
  | zero =>
    simp only [size] at fits
    simp only [littleEndian, ofLittleEndian]
    omega
  | succ width ih =>
    simp only [size] at fits
    have lower : n / 256 < size width := Nat.div_lt_of_lt_mul fits
    have byte : (UInt8.ofNat (n % 256)).toNat = n % 256 := by simp [UInt8.toNat_ofNat']
    simp only [littleEndian, ofLittleEndian, byte, ih lower]
    omega

end TokenLedger.Word
