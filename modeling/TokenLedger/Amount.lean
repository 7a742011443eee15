import TokenLedger.Text.Decimal

/-!
Amounts of token are whole numbers of its smallest part. A sum that its word cannot hold is never
wrapped around: the computation stops there, which is an outcome of its own (`Overflow`).
-/

namespace TokenLedger

/-- A computation met a number that its word cannot hold. -/
inductive Overflow where
  | sum
  | difference
  | product
deriving DecidableEq, Repr

/-- The wording of an overflow. -/
def Overflow.message : Overflow → String
  | .sum => "attempt to add with overflow"
  | .difference => "attempt to subtract with overflow"
  | .product => "overflow when multiplying duration by scalar"

/-- Why a computation stops: a number did not fit, or there was a cause to refuse. -/
inductive Stop (ε : Type) where
  | overflow (o : Overflow)
  | refused (e : ε)
deriving DecidableEq, Repr

namespace Amount

/-- The sum of two amounts, if a word holds it. -/
def add? (a b : UInt64) : Option UInt64 :=
  if a.toNat + b.toNat < UInt64.size then some (a + b) else none

/-- The sum of two amounts. -/
def add (a b : UInt64) : Except Overflow UInt64 :=
  match add? a b with
  | some c => .ok c
  | none => .error .sum

/-- The number that amounts make together, whether or not a word holds it. -/
def total (amounts : List UInt64) : Nat := amounts.foldr (fun a n => a.toNat + n) 0

/-- The sum of amounts on top of a first one, added up one after the other. -/
def sumFrom (start : UInt64) : List UInt64 → Except Overflow UInt64
  | [] => .ok start
  | a :: rest =>
    match add start a with
    | .ok next => sumFrom next rest
    | .error o => .error o

/-- The sum of amounts. -/
def sum (amounts : List UInt64) : Except Overflow UInt64 := sumFrom 0 amounts

/-- How many smallest parts make one token. -/
def partsPerToken : Nat := 100

/-- A number below a hundred with two digits. -/
def twoDigits (n : Nat) : List Char := [Decimal.digit (n / 10), Decimal.digit (n % 10)]

/-- An amount as it is shown: tokens, a point and two places. -/
def text (a : UInt64) : String :=
  let n := a.toNat
  String.ofList
    (Decimal.digits (n / partsPerToken) ++ '.' :: twoDigits (n % partsPerToken)) ++ " BSQ"

@[simp] theorem total_nil : total [] = 0 := rfl

@[simp] theorem total_cons (a : UInt64) (rest : List UInt64) :
    total (a :: rest) = a.toNat + total rest := rfl

theorem add?_eq_some_iff {a b c : UInt64} :
    add? a b = some c ↔ a.toNat + b.toNat = c.toNat := by
  unfold add? UInt64.size
  have bound := c.toNat_lt
  constructor
  · intro h
    split at h
    · rename_i fits
      cases h
      rw [UInt64.toNat_add, Nat.mod_eq_of_lt fits]
    · simp at h
  · intro h
    rw [if_pos (by omega)]
    congr 1
    apply UInt64.toNat_inj.1
    rw [UInt64.toNat_add, Nat.mod_eq_of_lt (by omega), h]

/-- A sum is the sum of the numbers, if a word holds it. -/
theorem sumFrom_eq_ok_iff {start sum : UInt64} {amounts : List UInt64} :
    sumFrom start amounts = .ok sum ↔ start.toNat + total amounts = sum.toNat := by
  induction amounts generalizing start with
  | nil =>
    simp only [sumFrom, Except.ok.injEq, total_nil, Nat.add_zero]
    exact UInt64.toNat_inj.symm
  | cons a rest ih =>
    simp only [sumFrom, add, total_cons]
    cases h : add? start a with
    | some next =>
      rw [add?_eq_some_iff] at h
      simp only [ih]
      omega
    | none =>
      simp only [reduceCtorEq, false_iff]
      have bound := sum.toNat_lt
      unfold add? UInt64.size at h
      split at h
      · simp at h
      · omega

/-- Amounts whose sum a word holds are added up. -/
theorem sum_eq_ok {amounts : List UInt64} (small : total amounts < UInt64.size) :
    sum amounts = .ok (UInt64.ofNat (total amounts)) := by
  rw [sum, sumFrom_eq_ok_iff, UInt64.toNat_ofNat_of_lt' small]
  exact Nat.zero_add _

end Amount

end TokenLedger
