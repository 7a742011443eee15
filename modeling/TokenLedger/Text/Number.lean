import TokenLedger.Text.Decimal

/-!
Numbers as they are given in settings and on a command line: digits, after a plus sign or not, and
for signed numbers after a minus sign. Leading zeros are allowed; blanks are not.
-/

namespace TokenLedger.Text

/-- Why a text is no number. -/
inductive NumberError where
  | empty
  | invalidDigit
  | tooLarge
deriving DecidableEq, Repr

/-- The wording of an error. -/
def NumberError.message : NumberError → String
  | empty => "cannot parse integer from empty string"
  | invalidDigit => "invalid digit found in string"
  | tooLarge => "number too large to fit in target type"

/-- Appends digits to a number that has to stay below a bound; the first fault counts. -/
def appendDigitsBelow (bound : Nat) (n : Nat) : List Char → Except NumberError Nat
  | [] => .ok n
  | c :: rest =>
    if ¬ Decimal.IsDigit c then .error .invalidDigit
    else if bound ≤ 10 * n + Decimal.digitValue c then .error .tooLarge
    else appendDigitsBelow bound (10 * n + Decimal.digitValue c) rest

/-- The number below a bound that a text stands for. -/
def numberBelow (bound : Nat) : List Char → Except NumberError Nat
  | [] => .error .empty
  | ['+'] => .error .invalidDigit
  | '+' :: rest => appendDigitsBelow bound 0 rest
  | cs => appendDigitsBelow bound 0 cs

/-- The word that a text stands for. -/
def readU64 (s : String) : Except NumberError UInt64 :=
  (numberBelow UInt64.size s.toList).map UInt64.ofNat

/-- The signed word of thirty-two bits that a text stands for. -/
def readI32? (s : String) : Option Int32 :=
  match s.toList with
  | '-' :: rest =>
    if rest = [] then none
    else (appendDigitsBelow 0x80000001 0 rest).toOption.map fun n => Int32.ofInt (-(n : Int))
  | cs => (numberBelow 0x80000000 cs).toOption.map fun n => Int32.ofInt n

end TokenLedger.Text
