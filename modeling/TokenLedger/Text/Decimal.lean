/-!
Numbers in base ten, as they are written in references, amounts and settings.

`ofDigits?_digits` says that what is written reads back.
-/

namespace TokenLedger.Decimal

/-- The character of a digit below ten. -/
def digit (n : Nat) : Char := Char.ofNat (0x30 + n)

/-- A number without leading zeros. -/
def digits (n : Nat) : List Char :=
  if n < 10 then [digit n] else digits (n / 10) ++ [digit (n % 10)]

/-- The text of a number. -/
def text (n : Nat) : String := String.ofList (digits n)

/-- Whether a character is one of the ten digits. -/
def IsDigit (c : Char) : Prop := 0x30 ≤ c.toNat ∧ c.toNat ≤ 0x39

instance (c : Char) : Decidable (IsDigit c) := inferInstanceAs (Decidable (_ ∧ _))

/-- The value of a digit. -/
def digitValue (c : Char) : Nat := c.toNat - 0x30

/-- The value of a run of digits. -/
def value (cs : List Char) : Nat := cs.foldl (fun n c => 10 * n + digitValue c) 0

/-- The number that one or more digits stand for, leading zeros allowed. -/
def ofDigits? (cs : List Char) : Option Nat :=
  if cs ≠ [] ∧ cs.all (fun c => decide (IsDigit c)) then some (value cs) else none

theorem toNat_digit {n : Nat} (h : n < 10) : (digit n).toNat = 0x30 + n := by
  have : ∀ m : Fin 10, (digit m.val).toNat = 0x30 + m.val := by decide
  exact this ⟨n, h⟩

theorem digitValue_digit {n : Nat} (h : n < 10) : digitValue (digit n) = n := by
  unfold digitValue
  rw [toNat_digit h]
  omega

theorem isDigit_digit {n : Nat} (h : n < 10) : IsDigit (digit n) := by
  unfold IsDigit
  rw [toNat_digit h]
  omega

theorem digits_ne_nil (n : Nat) : digits n ≠ [] := by
  unfold digits
  split <;> simp

theorem isDigit_of_mem_digits {n : Nat} {c : Char} (h : c ∈ digits n) : IsDigit c := by
  fun_induction digits n with
  | case1 n small =>
    simp only [List.mem_singleton] at h
    rw [h]
    exact isDigit_digit small
  | case2 n large ih =>
    rcases List.mem_append.1 h with h | h
    · exact ih h
    · simp only [List.mem_singleton] at h
      rw [h]
      exact isDigit_digit (Nat.mod_lt _ (by decide))

theorem value_append_singleton (cs : List Char) (c : Char) :
    value (cs ++ [c]) = 10 * value cs + digitValue c := by
  simp only [value, List.foldl_append, List.foldl_cons, List.foldl_nil]

theorem value_digits (n : Nat) : value (digits n) = n := by
  fun_induction digits n with
  | case1 n small =>
    simp only [value, List.foldl_cons, List.foldl_nil, digitValue_digit small]
    omega
  | case2 n large ih =>
    rw [value_append_singleton, ih, digitValue_digit (Nat.mod_lt n (show 0 < 10 by decide))]
    omega

/-- What is written reads back. -/
theorem ofDigits?_digits (n : Nat) : ofDigits? (digits n) = some n := by
  unfold ofDigits?
  have digitsOnly : (digits n).all (fun c => decide (IsDigit c)) = true :=
    List.all_eq_true.2 fun c h => decide_eq_true (isDigit_of_mem_digits h)
  rw [if_pos ⟨digits_ne_nil n, digitsOnly⟩, value_digits]

end TokenLedger.Decimal
