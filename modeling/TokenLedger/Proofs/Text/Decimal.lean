import Mathlib.Algebra.Group.Nat.Defs
import Mathlib.Data.List.Induction
import TokenLedger.Text.Decimal

/-!
Runs of digits. A number has many, but they differ in the zeros in front only: without such zeros
there is one, and that is what is written (`digits_value`, `not_padded_digits`).
-/

namespace TokenLedger.Decimal

/-- Whether several digits start with a zero, which adds nothing to their value. -/
def Padded (cs : List Char) : Prop := ∃ c rest, cs = '0' :: c :: rest

theorem ofDigits?_eq_some_iff {cs : List Char} {n : Nat} :
    ofDigits? cs = some n ↔ cs ≠ [] ∧ (∀ c ∈ cs, IsDigit c) ∧ value cs = n := by
  simp only [ofDigits?, List.all_eq_true, decide_eq_true_eq]
  split
  · rename_i digitsOnly
    rw [Option.some.injEq]
    exact ⟨fun same => ⟨digitsOnly.1, digitsOnly.2, same⟩, fun all => all.2.2⟩
  · rename_i none
    exact ⟨nofun, fun all => absurd ⟨all.1, all.2.1⟩ none⟩

theorem digitValue_lt {c : Char} (isDigit : IsDigit c) : digitValue c < 10 := by
  unfold IsDigit at isDigit
  unfold digitValue
  omega

theorem digit_digitValue {c : Char} (isDigit : IsDigit c) : digit (digitValue c) = c := by
  have number := toNat_digit (digitValue_lt isDigit)
  unfold IsDigit at isDigit
  have same : (digit (digitValue c)).toNat = c.toNat := by
    rw [number, digitValue]
    omega
  exact Char.toNat_inj.1 same

theorem value_cons (c : Char) (cs : List Char) :
    value (c :: cs) = digitValue c * 10 ^ cs.length + value cs := by
  induction cs using List.reverseRecOn with
  | nil => simp [value]
  | append_singleton cs d ih =>
    rw [← List.cons_append, value_append_singleton, ih, value_append_singleton,
      List.length_append, List.length_singleton, Nat.pow_succ]
    grind

theorem value_lt {cs : List Char} (digitsOnly : ∀ c ∈ cs, IsDigit c) :
    value cs < 10 ^ cs.length := by
  induction cs with
  | nil => exact Nat.one_pos
  | cons c cs ih =>
    have first := digitValue_lt (digitsOnly c List.mem_cons_self)
    have others := ih fun d member => digitsOnly d (List.mem_cons_of_mem _ member)
    have upper : digitValue c * 10 ^ cs.length ≤ 9 * 10 ^ cs.length :=
      Nat.mul_le_mul_right _ (by omega)
    rw [value_cons, List.length_cons, Nat.pow_succ]
    omega

theorem value_pos {c : Char} {rest : List Char} (isDigit : IsDigit c) (notZero : c ≠ '0') :
    0 < value (c :: rest) := by
  have first : 0 < digitValue c := by
    refine Nat.pos_of_ne_zero fun zero => notZero ?_
    rw [← digit_digitValue isDigit, zero]
    rfl
  have positive := Nat.mul_pos first (Nat.pow_pos (n := rest.length) (show 0 < 10 by decide))
  rw [value_cons]
  omega

theorem length_digits_le {n width : Nat} (positive : 0 < width) (small : n < 10 ^ width) :
    (digits n).length ≤ width := by
  fun_induction digits n generalizing width with
  | case1 n one => exact positive
  | case2 n more ih =>
    obtain ⟨width, rfl⟩ := Nat.exists_eq_succ_of_ne_zero (Nat.pos_iff_ne_zero.1 positive)
    rw [Nat.pow_succ] at small
    have tens : n / 10 < 10 ^ width := Nat.div_lt_of_lt_mul (by omega)
    have left : 0 < width := by
      rcases Nat.eq_zero_or_pos width with rfl | left
      · omega
      · exact left
    rw [List.length_append, List.length_singleton]
    exact Nat.succ_le_succ (ih left tens)

/-- What is written has no padding: it would be shorter without it. -/
theorem not_padded_digits (n : Nat) : ¬ Padded (digits n) := by
  rintro ⟨c, rest, padded⟩
  have digitsOnly : ∀ d ∈ c :: rest, IsDigit d := fun d member =>
    isDigit_of_mem_digits (n := n) (padded ▸ List.mem_cons_of_mem _ member)
  have zero : digitValue '0' = 0 := rfl
  have small : n < 10 ^ (c :: rest).length := by
    have number := value_digits n
    rw [padded, value_cons, zero, Nat.zero_mul, Nat.zero_add] at number
    exact number ▸ value_lt digitsOnly
  have short := length_digits_le (Nat.succ_pos _) small
  rw [padded] at short
  exact Nat.not_succ_le_self _ short

/-- Digits are what is written for their number, if they have no padding. -/
theorem digits_value {cs : List Char} (filled : cs ≠ []) (digitsOnly : ∀ c ∈ cs, IsDigit c)
    (plain : ¬ Padded cs) : digits (value cs) = cs := by
  induction cs using List.reverseRecOn with
  | nil => exact absurd rfl filled
  | append_singleton cs c ih =>
    have isDigit := digitsOnly c (by simp)
    have last := digitValue_lt isDigit
    rw [value_append_singleton]
    cases cs with
    | nil =>
      have alone : 10 * value [] + digitValue c = digitValue c := Nat.zero_add _
      rw [alone, digits, if_pos last, digit_digitValue isDigit]
      rfl
    | cons first others =>
      have before : ∀ d ∈ first :: others, IsDigit d := fun d member =>
        digitsOnly d (List.mem_append_left _ member)
      have notZero : first ≠ '0' := by
        rintro rfl
        cases others with
        | nil => exact plain ⟨c, [], rfl⟩
        | cons second rest => exact plain ⟨second, rest ++ [c], rfl⟩
      have positive : 0 < value (first :: others) :=
        value_pos (before first List.mem_cons_self) notZero
      have digitsBefore := ih (List.cons_ne_nil _ _) before fun ⟨_, _, same⟩ =>
        notZero (List.head_eq_of_cons_eq same)
      have large : ¬ 10 * value (first :: others) + digitValue c < 10 := by omega
      have quotient : (10 * value (first :: others) + digitValue c) / 10
          = value (first :: others) := by omega
      have remainder : (10 * value (first :: others) + digitValue c) % 10 = digitValue c := by
        omega
      rw [digits, if_neg large, quotient, remainder, digitsBefore, digit_digitValue isDigit]

end TokenLedger.Decimal
