/-!
Digits in base sixteen. What is written has lower-case letters; either case is read.
-/

namespace TokenLedger.Text

/-- The character of a digit below sixteen. -/
def hexDigit (n : Nat) : Char :=
  if n < 10 then Char.ofNat (0x30 + n) else Char.ofNat (0x57 + n)

/-- The value of a digit, upper or lower case. -/
def hexDigitValue? (c : Char) : Option Nat :=
  let n := c.toNat
  if 0x30 ≤ n ∧ n ≤ 0x39 then some (n - 0x30)
  else if 0x41 ≤ n ∧ n ≤ 0x46 then some (n - 0x37)
  else if 0x61 ≤ n ∧ n ≤ 0x66 then some (n - 0x57)
  else none

/-- A number in base sixteen, without leading zeros. -/
def hexDigits (n : Nat) : List Char :=
  if n < 16 then [hexDigit n] else hexDigits (n / 16) ++ [hexDigit (n % 16)]

theorem toNat_hexDigit_lt {n : Nat} (small : n < 16) : (hexDigit n).toNat < 128 := by
  have all : ∀ m : Fin 16, (hexDigit m).toNat < 128 := by decide
  exact all ⟨n, small⟩

theorem hexDigitValue?_hexDigit {n : Nat} (small : n < 16) :
    hexDigitValue? (hexDigit n) = some n := by
  have all : ∀ m : Fin 16, hexDigitValue? (hexDigit m) = some m.val := by decide
  exact all ⟨n, small⟩

end TokenLedger.Text
