import TokenLedger.Json.Records
import TokenLedger.Proofs.Bytes.Hex
import TokenLedger.Proofs.Json.Scan
import TokenLedger.Proofs.OutputRef

/-!
What forms write and read again. References are written whatever their ids are, but only those with
well-formed ids are read. So a form discerns values: it reads back those with a property, and refuses the
others for a reference in them. Lists of such values are discerned as well (`Discerns.list`): what stands
in front of the first value that is refused reads back, and there the reader stops.
-/

namespace TokenLedger.Json

/-- Whether a reader refuses what it finds for a reference. -/
def Refused {α : Type} (answer : Except Error α) : Prop :=
  ∃ e, answer = .error (.mismatch (.notReference e))

/-- After a reader that refuses, nothing is read. -/
theorem Refused.bind {α β : Type} {answer : Except Error α} (refused : Refused answer)
    (next : α → Except Error β) : Refused (answer >>= next) := by
  obtain ⟨e, refused⟩ := refused
  rw [refused]
  exact ⟨e, rfl⟩

/-- Whether the text of a value can stand in a list. -/
def Starts (cs : List Char) : Prop := ∃ c rest, cs = c :: rest ∧ IsBlank c = false ∧ c ≠ ']'

namespace Form

/-- The form reads the values of which `P` holds off the front of what it writes for them, and refuses
the others for a reference. -/
structure Discerns {α : Type} (f : Form α) (P : α → Prop) : Prop where
  starts : ∀ a, Starts (f.write a)
  reads : ∀ a, P a → ∀ rest, AtEnd rest → f.read (f.write a ++ rest) = .ok (a, rest)
  refuses : ∀ a, ¬ P a → ∀ rest, AtEnd rest → Refused (f.read (f.write a ++ rest))

section Parts

variable {α β : Type} {f : Form α} {P : α → Prop} {Q : β → Prop}

/-- A whole text is a value alone. -/
theorem Discerns.ofText_text (discerns : f.Discerns P) {a : α} (good : P a) :
    f.ofText (f.text a) = .ok a := by
  have read := discerns.reads a good [] atEnd_nil
  rw [List.append_nil] at read
  unfold ofText text
  rw [String.toList_ofList, read]
  rfl

theorem Discerns.ofText_text_refused (discerns : f.Discerns P) {a : α} (bad : ¬ P a) :
    Refused (f.ofText (f.text a)) := by
  have refused := discerns.refuses a bad [] atEnd_nil
  rw [List.append_nil] at refused
  unfold ofText text
  rw [String.toList_ofList]
  exact refused.bind _

theorem Discerns.imap (discerns : f.Discerns P) {forth : α → β} {back : β → α}
    (inverse : ∀ b, forth (back b) = b) : (f.imap forth back).Discerns fun b => P (back b) where
  starts b := discerns.starts (back b)
  reads b good rest ends := by
    simp only [Form.imap, discerns.reads (back b) good rest ends, Bind.bind, Except.bind, inverse]
    rfl
  refuses b bad rest ends := (discerns.refuses (back b) bad rest ends).bind _

/-- Texts that are looked into: those that `forth` takes read back. -/
theorem Discerns.refine (discerns : f.Discerns fun _ => True) {forth : α → Except Mismatch β}
    {back : β → α} (taken : ∀ b, Q b → forth (back b) = .ok b)
    (refused : ∀ b, ¬ Q b → ∃ e, forth (back b) = .error (.notReference e)) :
    (f.refine forth back).Discerns Q where
  starts b := discerns.starts (back b)
  reads b good rest ends := by
    simp only [Form.refine, discerns.reads (back b) trivial rest ends, Bind.bind, Except.bind,
      taken b good]
    rfl
  refuses b bad rest ends := by
    obtain ⟨e, refused⟩ := refused b bad
    simp only [Form.refine, discerns.reads (back b) trivial rest ends, Bind.bind, Except.bind,
      refused]
    exact ⟨e, rfl⟩

theorem Discerns.congr (discerns : f.Discerns P) {P' : α → Prop} (same : ∀ a, P' a ↔ P a) :
    f.Discerns P' where
  starts := discerns.starts
  reads a good := discerns.reads a ((same a).1 good)
  refuses a bad := discerns.refuses a fun good => bad ((same a).2 good)

/-! ## Words and texts -/

/-- Integers that a word holds read back, if they are taken for the values that they are written for. -/
theorem integer_discerns {expected : String} {ofInt? : Int → Option α} {toInt : α → Int}
    (counted : ∀ a, ∃ n : Nat, n < UInt64.size ∧ toInt a = n)
    (inverse : ∀ a, ofInt? (toInt a) = some a) :
    (integer expected ofInt? toInt).Discerns fun _ => True := by
  have written : ∀ a, ∃ d ds n, (integer expected ofInt? toInt).write a = d :: ds
      ∧ Decimal.IsDigit d ∧ Decimal.digits n = d :: ds ∧ n < UInt64.size ∧ toInt a = n := by
    intro a
    obtain ⟨n, small, same⟩ := counted a
    obtain ⟨d, ds, digits, isDigit⟩ := digits_eq_cons n
    have nonnegative : ¬ (n : Int) < 0 := by omega
    refine ⟨d, ds, n, ?_, isDigit, digits, small, same⟩
    simp only [integer, writeInteger, same, if_neg nonnegative, Int.natAbs_natCast, digits]
  refine ⟨fun a => ?_, fun a _ rest ends => ?_, fun _ bad => absurd trivial bad⟩
  · obtain ⟨d, ds, n, written, isDigit, -⟩ := written a
    refine ⟨d, ds, written, isBlank_of_isDigit isDigit, ?_⟩
    rintro rfl
    exact absurd isDigit (by decide)
  · obtain ⟨d, ds, n, written, isDigit, digits, small, same⟩ := written a
    have number := number_digits small ends
    rw [digits, List.cons_append] at number
    rw [written, List.cons_append]
    simp only [integer, skipBlank_cons (isBlank_of_isDigit isDigit), isDigit, or_true, if_true,
      number]
    simp only [Bind.bind, Except.bind, ← same, inverse]
    rfl

theorem word64_discerns : word64.Discerns fun _ => True := by
  refine integer_discerns (fun a => ⟨a.toNat, a.toNat_lt_size, rfl⟩) fun a => ?_
  have small : (a.toNat : Int) < UInt64.size := Int.ofNat_lt.2 a.toNat_lt_size
  simp only [below?, Int.natCast_nonneg, small, and_self, if_true, Int.toNat_natCast,
    Option.map_some, UInt64.ofNat_toNat]

theorem string_discerns : string.Discerns fun _ => True where
  starts s := ⟨'"', _, rfl, by decide, by decide⟩
  reads s _ rest _ := by
    have quoted := quotedText_flatMap_writeChar s rest
    show string.read (writeText s ++ rest) = _
    rw [writeText_append]
    exact quoted
  refuses _ bad := absurd trivial bad

theorem txId_discerns : txId.Discerns WellFormedId := by
  refine string_discerns.refine (fun s formed => ?_) fun s malformed => ?_
  · simp only [id_eq, checkTxId_eq_ok_iff.2 formed]
  · cases checked : checkTxId s with
    | ok _ => exact absurd (checkTxId_eq_ok_iff.1 checked) malformed
    | error e => exact ⟨e, by simp only [id_eq, checked]⟩

theorem reference_discerns : reference.Discerns fun r => WellFormedId r.txId := by
  refine string_discerns.refine (fun r formed => ?_) fun r malformed => ?_
  · simp only [OutputRef.parse_text formed]
  · obtain ⟨e, refused⟩ := OutputRef.exists_parse_text_error malformed
    exact ⟨e, by simp only [refused]⟩

theorem hex_discerns : hex.Discerns fun _ => True :=
  string_discerns.refine (fun bytes _ => by simp only [Hex.decode_encode]) fun _ bad =>
    absurd trivial bad

/-- Bytes that are there are quoted, so they are not taken for absent ones. -/
theorem option_hex_discerns : (option hex).Discerns fun _ => True where
  starts
    | none => ⟨'n', _, rfl, by decide, by decide⟩
    | some bytes => hex_discerns.starts bytes
  reads
    | none, _, _, _ => rfl
    | some bytes, _, rest, ends => by
      have read := hex_discerns.reads bytes trivial rest ends
      have quoted : hex.write bytes ++ rest
          = '"' :: ((Hex.encode bytes).toList.flatMap writeChar ++ '"' :: rest) :=
        writeText_append (Hex.encode bytes) rest
      show (option hex).read (hex.write bytes ++ rest) = _
      rw [quoted] at read ⊢
      have notNull : ¬ '"' = 'n' := by decide
      have shown : IsBlank '"' = false := by decide
      simp only [option, skipBlank_cons shown, if_neg notNull, read]
      rfl
  refuses _ bad := absurd trivial bad

end Parts

end Form

/-! ## Lists -/

/-- Parts with a comma in front of each. -/
def afterCommas (parts : List (List Char)) : List Char := parts.flatMap fun part => ',' :: part

theorem withCommas_cons (part : List Char) (parts : List (List Char)) :
    withCommas (part :: parts) = part ++ afterCommas parts := by
  induction parts generalizing part with
  | nil => exact (List.append_nil part).symm
  | cons second parts ih =>
    show part ++ ',' :: withCommas (second :: parts) = _
    rw [ih second]
    rfl

theorem afterCommas_cons (part : List Char) (parts : List (List Char)) :
    afterCommas (part :: parts) = ',' :: (part ++ afterCommas parts) := rfl

theorem length_le_length_withCommas (parts : List (List Char)) :
    parts.length ≤ (withCommas parts).length + 1 := by
  cases parts with
  | nil => exact Nat.zero_le _
  | cons part parts =>
    have commas : parts.length ≤ (afterCommas parts).length := by
      induction parts with
      | nil => exact Nat.le_refl _
      | cons second parts ih =>
        simp only [afterCommas, List.flatMap_cons, List.length_cons, List.length_append] at ih ⊢
        omega
    rw [withCommas_cons, List.length_cons, List.length_append]
    omega

/-- The fuel that the length of a text gives is enough for its parts. -/
theorem length_lt_length_text (parts : List (List Char)) (closer : Char) (rest : List Char) :
    parts.length < (withCommas parts ++ closer :: rest).length + 1 := by
  have commas := length_le_length_withCommas parts
  rw [List.length_append, List.length_cons]
  omega

theorem atEnd_afterCommas (parts : List (List Char)) {closer : Char}
    (closes : closer = ']' ∨ closer = '}') (rest : List Char) :
    AtEnd (afterCommas parts ++ closer :: rest) := by
  cases parts with
  | nil => exact atEnd_cons (Or.inr closes) rest
  | cons part parts => exact atEnd_cons (Or.inl rfl) _

theorem nextItem_of_starts {cs : List Char} (starts : Starts cs) (rest : List Char) :
    nextItem true (cs ++ rest) = .ok (some (cs ++ rest))
      ∧ nextItem false (',' :: (cs ++ rest)) = .ok (some (cs ++ rest)) := by
  obtain ⟨c, more, rfl, shown, notClosing⟩ := starts
  have comma : IsBlank ',' = false := by decide
  have notEnd : ¬ ',' = ']' := by decide
  constructor
  · simp only [nextItem, List.cons_append, skipBlank_cons shown, if_neg notClosing, if_true]
  · simp only [nextItem, List.cons_append, skipBlank_cons comma, skipBlank_cons shown, if_neg notEnd,
      if_neg notClosing, Bool.false_eq_true, if_false, if_true]

namespace Form

section Lists

variable {α : Type} {f : Form α} {P : α → Prop}

theorem listItems_first {cs : List Char} (starts : Starts cs) (item : Reader α) (fuel : Nat)
    (rest : List Char) :
    listItems item fuel true (cs ++ rest) = listItems item fuel false (',' :: (cs ++ rest)) := by
  obtain ⟨first, later⟩ := nextItem_of_starts starts rest
  cases fuel with
  | zero => rfl
  | succ fuel =>
    simp only [listItems, first, later]
    rfl

/-- Reading one more item of a list. -/
theorem listItems_comma {cs : List Char} (starts : Starts cs) (item : Reader α) (fuel : Nat)
    (rest : List Char) :
    listItems item (fuel + 1) false (',' :: (cs ++ rest)) = do
      let (a, rest) ← item (cs ++ rest)
      let (as, rest) ← listItems item fuel false rest
      return (a :: as, rest) := by
  obtain ⟨-, later⟩ := nextItem_of_starts starts rest
  simp only [listItems, later]
  rfl

theorem Discerns.listItems (discerns : f.Discerns P) (as : List α) {fuel : Nat}
    (enough : as.length < fuel) (rest : List Char) :
    ((∀ a ∈ as, P a) → Json.listItems f.read fuel false
        (afterCommas (as.map f.write) ++ ']' :: rest) = .ok (as, rest))
      ∧ ((¬ ∀ a ∈ as, P a) → Refused (Json.listItems f.read fuel false
        (afterCommas (as.map f.write) ++ ']' :: rest))) := by
  induction as generalizing fuel with
  | nil =>
    obtain ⟨fuel, rfl⟩ := Nat.exists_eq_add_of_le' enough
    exact ⟨fun _ => rfl, fun bad => absurd nofun bad⟩
  | cons a as ih =>
    rw [List.length_cons] at enough
    obtain ⟨fuel, rfl⟩ := Nat.exists_eq_add_of_le' (show 1 ≤ fuel by omega)
    have ends := atEnd_afterCommas (as.map f.write) (Or.inl rfl) rest
    have step : Json.listItems f.read (fuel + 1) false
        (afterCommas ((a :: as).map f.write) ++ ']' :: rest) = do
          let (a, cs) ← f.read (f.write a ++ (afterCommas (as.map f.write) ++ ']' :: rest))
          let (as, cs) ← Json.listItems f.read fuel false cs
          return (a :: as, cs) := by
      rw [← listItems_comma (discerns.starts a), List.map_cons, afterCommas_cons, List.cons_append,
        List.append_assoc]
    obtain ⟨read, refused⟩ := ih (show as.length < fuel by omega)
    rw [step, List.forall_mem_cons]
    constructor
    · rintro ⟨good, others⟩
      simp only [discerns.reads a good _ ends, Bind.bind, Except.bind, read others]
      rfl
    · intro bad
      by_cases good : P a
      · simp only [discerns.reads a good _ ends]
        exact (refused fun others => bad ⟨good, others⟩).bind _
      · exact (discerns.refuses a good _ ends).bind _

/-- There is no comma in front of the first item. -/
theorem Discerns.listItems_first (discerns : f.Discerns P) (as : List α) (fuel : Nat)
    (rest : List Char) :
    Json.listItems f.read fuel true (withCommas (as.map f.write) ++ ']' :: rest)
      = Json.listItems f.read fuel false (afterCommas (as.map f.write) ++ ']' :: rest) := by
  cases as with
  | nil => cases fuel <;> rfl
  | cons a as =>
    rw [List.map_cons, withCommas_cons, afterCommas_cons, List.append_assoc, List.cons_append,
      List.append_assoc, Form.listItems_first (discerns.starts a)]

theorem Discerns.list (discerns : f.Discerns P) : (list f).Discerns fun as => ∀ a ∈ as, P a := by
  have opened : ∀ (as : List α) (rest : List Char), ∃ fuel, as.length < fuel
      ∧ (Form.list f).read ((Form.list f).write as ++ rest)
        = Json.listItems f.read fuel false (afterCommas (as.map f.write) ++ ']' :: rest) := by
    intro as rest
    have enough := length_lt_length_text (as.map f.write) ']' rest
    rw [List.length_map] at enough
    refine ⟨_, enough, ?_⟩
    rw [← discerns.listItems_first]
    simp only [Form.list, List.cons_append, List.append_assoc, List.nil_append]
    rfl
  refine ⟨fun as => ⟨'[', _, rfl, by decide, by decide⟩, fun as good rest _ => ?_,
    fun as bad rest _ => ?_⟩
  · obtain ⟨fuel, enough, read⟩ := opened as rest
    rw [read]
    exact (discerns.listItems as enough rest).1 good
  · obtain ⟨fuel, enough, read⟩ := opened as rest
    rw [read]
    exact (discerns.listItems as enough rest).2 bad

end Lists

end Form

end TokenLedger.Json
