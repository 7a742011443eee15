import TokenLedger.Amount

/-!
The running balance of a transaction: what its inputs brought in, less what its outputs have taken.
Its sign is what counts, so it may go below zero; it is held in a signed word.
-/

namespace TokenLedger

/-- Whether a signed word holds a number. -/
def FitsWord (n : Int) : Prop := -0x8000000000000000 ≤ n ∧ n < 0x8000000000000000

instance (n : Int) : Decidable (FitsWord n) := inferInstanceAs (Decidable (_ ∧ _))

theorem fitsWord_natCast_iff {n : Nat} : FitsWord (n : Int) ↔ n < 0x8000000000000000 := by
  unfold FitsWord
  omega

/-- The running balance of a transaction. -/
structure Balance where
  value : Int
  fits : FitsWord value := by decide
deriving DecidableEq

namespace Balance

/-- The balance that nothing has entered. -/
def zero : Balance := ⟨0, by decide⟩

instance : Inhabited Balance := ⟨zero⟩

/-- A balance of a number, if the word holds it. -/
def ofInt? (n : Int) : Option Balance :=
  if h : FitsWord n then some ⟨n, h⟩ else none

theorem ofInt?_eq_some_iff {n : Int} {b : Balance} : ofInt? n = some b ↔ b.value = n := by
  unfold ofInt?
  constructor
  · intro made
    split at made
    · cases made
      rfl
    · cases made
  · rintro rfl
    exact dif_pos b.fits

theorem ofInt?_eq_none_iff {n : Int} : ofInt? n = none ↔ ¬ FitsWord n := by
  unfold ofInt?
  split
  · rename_i fits
    constructor
    · intro made
      cases made
    · intro large
      exact absurd fits large
  · rename_i large
    exact ⟨fun _ => large, fun _ => rfl⟩

/-- The balance with more on it. -/
def add (b : Balance) (n : Int) : Except Overflow Balance :=
  match ofInt? (b.value + n) with
  | some c => .ok c
  | none => .error .sum

/-- The balance with less on it. -/
def subtract (b : Balance) (n : Int) : Except Overflow Balance :=
  match ofInt? (b.value - n) with
  | some c => .ok c
  | none => .error .difference

/-- Whether anything is left. -/
def isPositive (b : Balance) : Bool := 0 < b.value

/-- Whether the balance is even. -/
def isZero (b : Balance) : Bool := b.value = 0

/-- Whether an output of this value can be paid from the balance. -/
def Covers (b : Balance) (value : UInt64) : Prop := 0 < value.toNat ∧ (value.toNat : Int) ≤ b.value

instance (b : Balance) (value : UInt64) : Decidable (b.Covers value) :=
  inferInstanceAs (Decidable (_ ∧ _))

/-- The balance as an amount; below zero there is none. -/
def amount (b : Balance) : UInt64 := UInt64.ofNat b.value.toNat

/-- Paying what the balance covers never leaves the word. -/
theorem subtract_eq_ok_of_covers {b : Balance} {value : UInt64} (h : b.Covers value) :
    ∃ c, b.subtract value.toNat = .ok c ∧ c.value = b.value - value.toNat := by
  obtain ⟨_, upper⟩ := b.fits
  obtain ⟨_, covered⟩ := h
  have fits : FitsWord (b.value - value.toNat) := ⟨by omega, by omega⟩
  exact ⟨⟨b.value - value.toNat, fits⟩, by simp [subtract, ofInt?, fits], rfl⟩

/-- What is left of a balance is its amount. -/
theorem toNat_amount {b : Balance} (notOverdrawn : 0 ≤ b.value) :
    (b.amount.toNat : Int) = b.value := by
  obtain ⟨_, upper⟩ := b.fits
  have small : b.value.toNat < UInt64.size := by
    unfold UInt64.size
    omega
  rw [amount, UInt64.toNat_ofNat_of_lt' small]
  exact Int.toNat_of_nonneg notOverdrawn

end Balance

end TokenLedger
