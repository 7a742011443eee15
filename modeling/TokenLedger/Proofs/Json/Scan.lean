import TokenLedger.Json.Form
import TokenLedger.Proofs.Bytes.Utf8
import TokenLedger.Proofs.Text.Decimal

/-!
Numbers and quoted texts read back off the front of what follows them (`number_digits`,
`quotedText_writeText`).

A number has no end of its own, so something has to follow that cannot go on with it. What follows the
parts of a list or an object never does.
-/

namespace TokenLedger.Json

/-- Whether a text has no more of a value at its front: it is at its end, at a comma, or at the end of
a list or of an object. -/
def AtEnd (cs : List Char) : Prop := ∀ c ∈ cs.head?, c = ',' ∨ c = ']' ∨ c = '}'

theorem atEnd_nil : AtEnd [] := nofun

theorem atEnd_cons {c : Char} (ends : c = ',' ∨ c = ']' ∨ c = '}') (cs : List Char) :
    AtEnd (c :: cs) := by
  intro d first
  cases first
  exact ends

theorem skipBlank_cons {c : Char} (shown : IsBlank c = false) (cs : List Char) :
    skipBlank (c :: cs) = c :: cs :=
  List.dropWhile_cons_of_neg (by simp only [shown, Bool.false_eq_true, not_false_eq_true])

/-! ## Numbers -/

theorem isBlank_of_isDigit {c : Char} (isDigit : Decimal.IsDigit c) : IsBlank c = false := by
  unfold Decimal.IsDigit at isDigit
  have apart : ∀ d : Char, d.toNat < 0x30 → c ≠ d := by
    rintro d low rfl
    omega
  have space := apart ' ' (by decide)
  have newline := apart '\n' (by decide)
  have tab := apart '\t' (by decide)
  have carriage := apart '\r' (by decide)
  simp only [IsBlank, space, newline, tab, carriage, Bool.or_eq_false_iff, beq_eq_false_iff_ne, ne_eq,
    not_false_eq_true, and_self]

/-- Digits are read up to where there are no more. -/
theorem someDigits_append {ds rest : List Char} (filled : ds ≠ [])
    (digitsOnly : ∀ c ∈ ds, Decimal.IsDigit c) (beyond : ∀ c ∈ rest.head?, ¬ Decimal.IsDigit c)
    (ended : Error) : someDigits ended (ds ++ rest) = .ok (ds, rest) := by
  have all : ∀ c ∈ ds, decide (Decimal.IsDigit c) = true := fun c member =>
    decide_eq_true (digitsOnly c member)
  have stops : rest.takeWhile (fun c => decide (Decimal.IsDigit c)) = []
      ∧ rest.dropWhile (fun c => decide (Decimal.IsDigit c)) = rest := by
    cases rest with
    | nil => exact ⟨rfl, rfl⟩
    | cons c rest =>
      have other := beyond c rfl
      simp [other]
  unfold someDigits
  rw [List.takeWhile_append_of_pos all, List.dropWhile_append_of_pos all, stops.1, stops.2,
    List.append_nil]
  exact if_pos filled

theorem not_isDigit_of_atEnd {rest : List Char} (ends : AtEnd rest) :
    ∀ c ∈ rest.head?, ¬ Decimal.IsDigit c := by
  intro c first
  rcases ends c first with rfl | rfl | rfl <;> decide

/-- The digits of a number are its part before a point. -/
theorem wholeDigits_digits (n : Nat) {rest : List Char} (ends : AtEnd rest) (ended : Error) :
    wholeDigits ended (Decimal.digits n ++ rest) = .ok (Decimal.digits n, rest) := by
  have read := someDigits_append (Decimal.digits_ne_nil n)
    (fun c member => Decimal.isDigit_of_mem_digits member) (not_isDigit_of_atEnd ends) ended
  unfold wholeDigits
  rw [read]
  simp only [Bind.bind, Except.bind]
  split
  · rename_i c more padded
    exact absurd ⟨c, more, padded⟩ (Decimal.not_padded_digits n)
  · rfl

theorem fractionDigits_of_atEnd {rest : List Char} (ends : AtEnd rest) (ended : Error) :
    fractionDigits ended rest = .ok ([], rest) := by
  unfold fractionDigits
  split
  · rcases ends '.' rfl with same | same | same <;> cases same
  · rfl

theorem exponentPart_of_atEnd {rest : List Char} (ends : AtEnd rest) (ended : Error) :
    exponentPart ended rest = .ok (none, rest) := by
  cases rest with
  | nil => rfl
  | cons c rest =>
    have other : ¬ (c = 'e' ∨ c = 'E') := by
      rcases ends c rfl with rfl | rfl | rfl <;> decide
    exact if_neg other

theorem digits_eq_cons (n : Nat) :
    ∃ d ds, Decimal.digits n = d :: ds ∧ Decimal.IsDigit d := by
  obtain ⟨d, ds, digits⟩ := List.exists_cons_of_ne_nil (Decimal.digits_ne_nil n)
  exact ⟨d, ds, digits, Decimal.isDigit_of_mem_digits (digits ▸ List.mem_cons_self)⟩

theorem numeral_digits (n : Nat) {rest : List Char} (ends : AtEnd rest) (ended : Error) :
    numeral ended (Decimal.digits n ++ rest)
      = .ok ({ negative := false, whole := Decimal.digits n }, rest) := by
  obtain ⟨d, ds, digits, isDigit⟩ := digits_eq_cons n
  have whole := wholeDigits_digits n ends ended
  have fraction := fractionDigits_of_atEnd ends ended
  have exponent := exponentPart_of_atEnd ends ended
  rw [digits] at whole ⊢
  unfold numeral
  split
  rename_i negative cs unsigned
  split at unsigned
  · rename_i signed
    cases signed
    exact absurd isDigit (by decide)
  · cases unsigned
    simp only [Bind.bind, Except.bind, whole, fraction, exponent]
    rfl

/-- A number that a word holds reads back from its digits. -/
theorem number_digits {n : Nat} (small : n < UInt64.size) {rest : List Char} (ends : AtEnd rest) :
    number (Decimal.digits n ++ rest) = .ok (.integer n, rest) := by
  have whole : Numeral.integer? { negative := false, whole := Decimal.digits n }
      = some (n : Int) := by
    simp only [Numeral.integer?, Decimal.value_digits, ne_eq, not_true_eq_false, or_self, if_false,
      Bool.false_eq_true, small, if_true]
  unfold number
  rw [numeral_digits n ends]
  simp only [Bind.bind, Except.bind, whole]
  rfl

/-! ## Quoted texts -/

theorem fourHexDigits_hexDigit {n : Nat} (small : n < 0x20) (rest : List Char) :
    fourHexDigits ('0' :: '0' :: Text.hexDigit (n / 16) :: Text.hexDigit (n % 16) :: rest)
      = .ok (n, rest) := by
  have high : n / 16 < 16 := by omega
  have low : n % 16 < 16 := by omega
  have ascii : ∀ c ∈ ['0', '0', Text.hexDigit (n / 16), Text.hexDigit (n % 16)],
      c.toNat < 0x80 := by
    intro c member
    simp only [List.mem_cons, List.not_mem_nil, or_false] at member
    rcases member with rfl | rfl | rfl | rfl
    · decide
    · decide
    · exact Text.toNat_hexDigit_lt high
    · exact Text.toNat_hexDigit_lt low
  have enough : ¬ (Utf8.encodeChars
      ['0', '0', Text.hexDigit (n / 16), Text.hexDigit (n % 16)]).length < 4 := by
    rw [Utf8.length_encodeChars ascii]
    exact Nat.lt_irrefl 4
  have zero : Text.hexDigitValue? '0' = some 0 := by decide
  have value : ((0 * 16 + 0) * 16 + n / 16) * 16 + n % 16 = n := by omega
  unfold fourHexDigits
  simp only [List.take_succ_cons, List.take_zero, if_neg enough, zero,
    Text.hexDigitValue?_hexDigit high, Text.hexDigitValue?_hexDigit low, value]

/-- A character below the blank is written by its number. -/
theorem numberedChar_hexDigit {c : Char} (control : c.toNat < 0x20) (rest : List Char) :
    numberedChar false
        ('0' :: '0' :: Text.hexDigit (c.toNat / 16) :: Text.hexDigit (c.toNat % 16) :: rest)
      = .ok (c, rest) := by
  have notLow : ¬ IsLowHalf c.toNat := by
    unfold IsLowHalf
    omega
  have notHigh : ¬ IsHighHalf c.toNat := by
    unfold IsHighHalf
    omega
  unfold numberedChar
  rw [fourHexDigits_hexDigit control]
  simp only [Bind.bind, Except.bind, Bool.false_eq_true, if_false, if_neg notLow, if_neg notHigh,
    Char.ofNat_toNat]
  rfl

/-- Each character reads back from what is written for it, and the reader goes on behind it. -/
theorem quotedChars_writeChar (c : Char) (fuel : Nat) (more : List Char) :
    quotedChars false (fuel + 1) (writeChar c ++ more) = do
      let (text, rest) ← quotedChars false fuel more
      return (c :: text, rest) := by
  unfold writeChar
  -- Seven characters have a letter of their own after the backslash, in the order `writeChar` has them.
  split
  · subst_vars; rfl
  split
  · subst_vars; rfl
  split
  · subst_vars; rfl
  split
  · subst_vars; rfl
  split
  · subst_vars; rfl
  split
  · subst_vars; rfl
  split
  · subst_vars; rfl
  split
  · rename_i control
    have read : escapedChar false ('u' :: '0' :: '0' :: Text.hexDigit (c.toNat / 16)
        :: Text.hexDigit (c.toNat % 16) :: more) = .ok (c, more) :=
      numberedChar_hexDigit control more
    simp only [List.cons_append, List.nil_append, quotedChars, read]
    rfl
  · rename_i quote backslash _ _ _ _ _ plain
    simp only [List.cons_append, List.nil_append, quotedChars, if_neg quote, if_neg backslash,
      if_neg plain]

theorem quotedChars_flatMap_writeChar (cs : List Char) {fuel : Nat} (enough : cs.length < fuel)
    (rest : List Char) :
    quotedChars false fuel (cs.flatMap writeChar ++ '"' :: rest) = .ok (cs, rest) := by
  induction cs generalizing fuel with
  | nil =>
    obtain ⟨fuel, rfl⟩ := Nat.exists_eq_add_of_le' enough
    rfl
  | cons c cs ih =>
    rw [List.length_cons] at enough
    obtain ⟨fuel, rfl⟩ := Nat.exists_eq_add_of_le' (show 1 ≤ fuel by omega)
    rw [List.flatMap_cons, List.append_assoc, quotedChars_writeChar, ih (by omega)]
    rfl

theorem writeChar_ne_nil (c : Char) : writeChar c ≠ [] := by
  unfold writeChar
  split_ifs <;> exact List.cons_ne_nil _ _

theorem length_le_length_flatMap_writeChar (cs : List Char) :
    cs.length ≤ (cs.flatMap writeChar).length := by
  induction cs with
  | nil => exact Nat.le_refl _
  | cons c cs ih =>
    have one := List.length_pos_iff.2 (writeChar_ne_nil c)
    rw [List.flatMap_cons, List.length_cons, List.length_append]
    omega

/-- A text reads back from its characters in quotes, after the opening quote. -/
theorem quotedText_flatMap_writeChar (s : String) (rest : List Char) :
    quotedText false (s.toList.flatMap writeChar ++ '"' :: rest) = .ok (s, rest) := by
  have enough : s.toList.length < (s.toList.flatMap writeChar ++ '"' :: rest).length := by
    have short := length_le_length_flatMap_writeChar s.toList
    rw [List.length_append, List.length_cons]
    omega
  unfold quotedText
  rw [quotedChars_flatMap_writeChar s.toList enough]
  simp only [Bind.bind, Except.bind, String.ofList_toList]
  rfl

theorem writeText_append (s : String) (rest : List Char) :
    writeText s ++ rest = '"' :: (s.toList.flatMap writeChar ++ '"' :: rest) := by
  simp only [writeText, List.cons_append, List.append_assoc, List.nil_append]

end TokenLedger.Json
