import TokenLedger.Proofs.Bytes.Utf8
import TokenLedger.Proofs.Bytes.Word
import TokenLedger.Proofs.Steps
import TokenLedger.Wire.Records

/-!
What a codec reads are just the bytes that it writes, with more behind them. This holds of the parts
that codecs are put together from, as long as no value is read from several forms. Texts and lists
come after their length in a word, so they are read only if a word counts them.
-/

namespace TokenLedger.Wire.Codec

section Steps

variable {α β : Type} {bytes rest : Bytes}

theorem splitAt?_append {count : Nat} {first : Bytes} (length : first.length = count)
    (rest : Bytes) : splitAt? count (first ++ rest) = some (first, rest) := by
  subst length
  simp [splitAt?]

theorem splitAt?_eq_some_iff {count : Nat} {first : Bytes} :
    splitAt? count bytes = some (first, rest) ↔ first.length = count ∧ bytes = first ++ rest := by
  constructor
  · intro cut
    unfold splitAt? at cut
    dsimp only at cut
    split at cut
    · rename_i enough
      obtain ⟨rfl, rfl⟩ := Prod.mk.inj (Option.some.inj cut)
      exact ⟨enough, (List.take_append_drop count bytes).symm⟩
    · cases cut
  · rintro ⟨length, rfl⟩
    exact splitAt?_append length rest

/-- Where every value that is read stands for another, none is refused. -/
theorem imap_eq_refine (c : Codec α) (f : α → β) (g : β → α) :
    c.imap f g = c.refine (fun a => .ok (f a)) g := rfl

theorem decode_refine_iff {c : Codec α} {f : α → Except CodecError β} {g : β → α} {b : β} :
    (c.refine f g).decode bytes = .ok (b, rest)
      ↔ ∃ a, c.decode bytes = .ok (a, rest) ∧ f a = .ok b := by
  constructor
  · intro read
    obtain ⟨⟨a, left⟩, decoded, read⟩ := bind_eq_ok_iff.1 read
    obtain ⟨b', taken, same⟩ := bind_eq_ok_iff.1 read
    obtain ⟨rfl, rfl⟩ := Prod.mk.inj (Except.ok.inj same)
    exact ⟨a, decoded, taken⟩
  · rintro ⟨a, decoded, taken⟩
    exact bind_eq_ok_iff.2 ⟨_, decoded, bind_eq_ok_iff.2 ⟨b, taken, rfl⟩⟩

theorem decode_imap_iff {c : Codec α} {f : α → β} {g : β → α} {b : β} :
    (c.imap f g).decode bytes = .ok (b, rest) ↔ ∃ a, c.decode bytes = .ok (a, rest) ∧ f a = b := by
  simp only [imap_eq_refine, decode_refine_iff, Except.ok.injEq]

theorem decode_pair_iff {first : Codec α} {second : Codec β} {v : α × β} :
    (first.pair second).decode bytes = .ok (v, rest)
      ↔ ∃ later, first.decode bytes = .ok (v.1, later) ∧ second.decode later = .ok (v.2, rest) := by
  constructor
  · intro read
    obtain ⟨⟨a, later⟩, decoded, read⟩ := bind_eq_ok_iff.1 read
    obtain ⟨⟨b, left⟩, decoded', same⟩ := bind_eq_ok_iff.1 read
    obtain ⟨rfl, rfl⟩ := Prod.mk.inj (Except.ok.inj same)
    exact ⟨later, decoded, decoded'⟩
  · rintro ⟨later, decoded, decoded'⟩
    exact bind_eq_ok_iff.2 ⟨_, decoded, bind_eq_ok_iff.2 ⟨_, decoded', rfl⟩⟩

theorem decode_option_iff {c : Codec α} {a? : Option α} :
    c.option.decode bytes = .ok (a?, rest)
      ↔ word8.decode bytes = .ok (0, rest) ∧ a? = none
        ∨ ∃ later a, word8.decode bytes = .ok (1, later) ∧ c.decode later = .ok (a, rest)
          ∧ a? = some a := by
  constructor
  · intro read
    obtain ⟨⟨tag, later⟩, tagged, next⟩ := bind_eq_ok_iff.1 read
    dsimp only at next
    split at next
    · rename_i zero
      obtain ⟨rfl, rfl⟩ := Prod.mk.inj (Except.ok.inj next)
      exact .inl ⟨zero ▸ tagged, rfl⟩
    · split at next
      · rename_i one
        obtain ⟨⟨a, left⟩, decoded, same⟩ := bind_eq_ok_iff.1 next
        obtain ⟨rfl, rfl⟩ := Prod.mk.inj (Except.ok.inj same)
        exact .inr ⟨later, a, one ▸ tagged, decoded, rfl⟩
      · cases next
  · rintro (⟨tagged, rfl⟩ | ⟨later, a, tagged, decoded, rfl⟩)
    · exact bind_eq_ok_iff.2 ⟨_, tagged, rfl⟩
    · exact bind_eq_ok_iff.2 ⟨_, tagged, bind_eq_ok_iff.2 ⟨_, decoded, rfl⟩⟩

theorem decodeMany_zero_iff {c : Codec α} {as : List α} :
    decodeMany c 0 bytes = .ok (as, rest) ↔ as = [] ∧ bytes = rest := by
  rw [decodeMany, Except.ok.injEq, Prod.mk.injEq, eq_comm]

theorem decodeMany_succ_iff {c : Codec α} {count : Nat} {as : List α} :
    decodeMany c (count + 1) bytes = .ok (as, rest)
      ↔ ∃ a others later, c.decode bytes = .ok (a, later)
        ∧ decodeMany c count later = .ok (others, rest) ∧ as = a :: others := by
  constructor
  · intro read
    obtain ⟨⟨a, later⟩, decoded, read⟩ := bind_eq_ok_iff.1 read
    obtain ⟨⟨others, left⟩, decodedMany, same⟩ := bind_eq_ok_iff.1 read
    obtain ⟨rfl, rfl⟩ := Prod.mk.inj (Except.ok.inj same)
    exact ⟨a, others, later, decoded, decodedMany, rfl⟩
  · rintro ⟨a, others, later, decoded, decodedMany, rfl⟩
    exact bind_eq_ok_iff.2 ⟨_, decoded, bind_eq_ok_iff.2 ⟨_, decodedMany, rfl⟩⟩

theorem decode_list_iff {c : Codec α} {as : List α} :
    c.list.decode bytes = .ok (as, rest)
      ↔ ∃ count later, word64.decode bytes = .ok (count, later)
        ∧ decodeMany c count.toNat later = .ok (as, rest) := by
  constructor
  · intro read
    obtain ⟨⟨count, later⟩, length, decodedMany⟩ := bind_eq_ok_iff.1 read
    exact ⟨count, later, length, decodedMany⟩
  · rintro ⟨count, later, length, decodedMany⟩
    exact bind_eq_ok_iff.2 ⟨_, length, decodedMany⟩

theorem decode_either_iff {first : Codec α} {second : Codec β} {v : α ⊕ β} :
    (first.either second).decode bytes = .ok (v, rest)
      ↔ (∃ later a, word32.decode bytes = .ok (0, later) ∧ first.decode later = .ok (a, rest)
          ∧ v = .inl a)
        ∨ ∃ later b, word32.decode bytes = .ok (1, later) ∧ second.decode later = .ok (b, rest)
          ∧ v = .inr b := by
  constructor
  · intro read
    obtain ⟨⟨tag, later⟩, tagged, next⟩ := bind_eq_ok_iff.1 read
    dsimp only at next
    split at next
    · rename_i zero
      obtain ⟨⟨a, left⟩, decoded, same⟩ := bind_eq_ok_iff.1 next
      obtain ⟨rfl, rfl⟩ := Prod.mk.inj (Except.ok.inj same)
      exact .inl ⟨later, a, zero ▸ tagged, decoded, rfl⟩
    · split at next
      · rename_i one
        obtain ⟨⟨b, left⟩, decoded, same⟩ := bind_eq_ok_iff.1 next
        obtain ⟨rfl, rfl⟩ := Prod.mk.inj (Except.ok.inj same)
        exact .inr ⟨later, b, one ▸ tagged, decoded, rfl⟩
      · cases next
  · rintro (⟨later, a, tagged, decoded, rfl⟩ | ⟨later, b, tagged, decoded, rfl⟩)
    · exact bind_eq_ok_iff.2 ⟨_, tagged, bind_eq_ok_iff.2 ⟨_, decoded, rfl⟩⟩
    · exact bind_eq_ok_iff.2 ⟨_, tagged, bind_eq_ok_iff.2 ⟨_, decoded, rfl⟩⟩

end Steps

/-- The codec reads a value just if `P` holds of it and the bytes start with those that it writes for
the value; what follows them is left. -/
def Exact {α : Type} (c : Codec α) (P : α → Prop) : Prop :=
  ∀ bytes a rest, c.decode bytes = .ok (a, rest) ↔ P a ∧ bytes = c.encode a ++ rest

section Parts

variable {α β : Type} {P : α → Prop} {Q : β → Prop}

theorem Exact.decode {c : Codec α} (exact : c.Exact P) {a : α} (good : P a) (rest : Bytes) :
    c.decode (c.encode a ++ rest) = .ok (a, rest) :=
  (exact _ a rest).2 ⟨good, rfl⟩

theorem Exact.congr {c : Codec α} (exact : c.Exact P) {R : α → Prop} (same : ∀ a, P a ↔ R a) :
    c.Exact R := by
  intro bytes a rest
  rw [exact, same]

theorem Exact.refine {c : Codec α} (exact : c.Exact P) {f : α → Except CodecError β} {g : β → α}
    (inverse : ∀ a b, P a → (f a = .ok b ↔ a = g b)) : (c.refine f g).Exact fun b => P (g b) := by
  intro bytes b rest
  rw [decode_refine_iff]
  constructor
  · rintro ⟨a, decoded, taken⟩
    obtain ⟨good, rfl⟩ := (exact bytes a rest).1 decoded
    obtain rfl := (inverse a b good).1 taken
    exact ⟨good, rfl⟩
  · rintro ⟨good, rfl⟩
    exact ⟨g b, exact.decode good rest, (inverse (g b) b good).2 rfl⟩

theorem Exact.imap {c : Codec α} (exact : c.Exact P) {f : α → β} {g : β → α}
    (inverse : ∀ a b, P a → (f a = b ↔ a = g b)) : (c.imap f g).Exact fun b => P (g b) := by
  rw [imap_eq_refine]
  refine exact.refine fun a b good => ?_
  rw [Except.ok.injEq]
  exact inverse a b good

theorem Exact.pair {first : Codec α} {second : Codec β} (exact : first.Exact P)
    (exact' : second.Exact Q) : (first.pair second).Exact fun v => P v.1 ∧ Q v.2 := by
  intro bytes v rest
  rw [decode_pair_iff]
  constructor
  · rintro ⟨later, decoded, decoded'⟩
    obtain ⟨good, rfl⟩ := (exact bytes v.1 later).1 decoded
    obtain ⟨good', rfl⟩ := (exact' later v.2 rest).1 decoded'
    exact ⟨⟨good, good'⟩, (List.append_assoc ..).symm⟩
  · rintro ⟨⟨good, good'⟩, rfl⟩
    refine ⟨second.encode v.2 ++ rest, ?_, exact'.decode good' rest⟩
    rw [Codec.pair, List.append_assoc]
    exact exact.decode good _

theorem number_exact (width : Nat) : (number width).Exact fun n => n < Word.size width := by
  intro bytes n rest
  constructor
  · intro read
    simp only [number] at read
    split at read
    · rename_i first rest cut
      obtain ⟨rfl, rfl⟩ := Prod.mk.inj (Except.ok.inj read)
      obtain ⟨rfl, rfl⟩ := splitAt?_eq_some_iff.1 cut
      refine ⟨Word.ofLittleEndian_lt first, ?_⟩
      exact congrArg (· ++ rest) (Word.littleEndian_ofLittleEndian first).symm
    · cases read
  · rintro ⟨small, rfl⟩
    simp only [number, splitAt?_append (Word.length_littleEndian width n),
      Word.ofLittleEndian_littleEndian small]

theorem word8_exact : word8.Exact fun _ => True := by
  refine ((number_exact 1).imap fun n b small => ?_).congr fun b => iff_true_intro b.toNat_lt
  have taken : (UInt8.ofNat n).toNat = n := UInt8.toNat_ofNat_of_lt' small
  rw [← UInt8.toNat_inj, taken]

theorem word32_exact : word32.Exact fun _ => True := by
  refine ((number_exact 4).imap fun n b small => ?_).congr fun b => iff_true_intro b.toNat_lt
  have taken : (UInt32.ofNat n).toNat = n := UInt32.toNat_ofNat_of_lt' small
  rw [← UInt32.toNat_inj, taken]

theorem word64_exact : word64.Exact fun _ => True := by
  refine ((number_exact 8).imap fun n b small => ?_).congr fun b => iff_true_intro b.toNat_lt
  have taken : (UInt64.ofNat n).toNat = n := UInt64.toNat_ofNat_of_lt' small
  rw [← UInt64.toNat_inj, taken]

theorem int32_exact : int32.Exact fun _ => True :=
  word32_exact.imap fun _ _ _ => ⟨fun same => same ▸ rfl, fun same => same ▸ rfl⟩

/-- A word is the length of something just if it counts it. -/
theorem length_eq_toNat_iff {n : Nat} {count : UInt64} :
    n = count.toNat ↔ n < UInt64.size ∧ count = UInt64.ofNat n := by
  constructor
  · rintro rfl
    exact ⟨count.toNat_lt, UInt64.ofNat_toNat.symm⟩
  · rintro ⟨small, rfl⟩
    exact (UInt64.toNat_ofNat_of_lt' small).symm

/-- Whether a word counts the bytes of a text. -/
def TextCounted (s : String) : Prop := (Utf8.encode s).length < UInt64.size

instance (s : String) : Decidable (TextCounted s) := inferInstanceAs (Decidable (_ < _))

theorem text_exact : text.Exact TextCounted := by
  intro bytes s rest
  constructor
  · intro read
    obtain ⟨⟨count, later⟩, decoded, next⟩ := bind_eq_ok_iff.1 read
    obtain ⟨-, rfl⟩ := (word64_exact bytes count later).1 decoded
    dsimp only at next
    split at next
    · cases next
    · rename_i first rest cut
      obtain ⟨length, rfl⟩ := splitAt?_eq_some_iff.1 cut
      split at next
      · rename_i s decoded
        obtain ⟨rfl, rfl⟩ := Prod.mk.inj (Except.ok.inj next)
        obtain rfl := Utf8.decode_eq_ok_iff.1 decoded
        obtain ⟨counted, rfl⟩ := length_eq_toNat_iff.1 length
        exact ⟨counted, (List.append_assoc ..).symm⟩
      · cases next
  · rintro ⟨counted, rfl⟩
    have length := word64_exact.decode (a := UInt64.ofNat (Utf8.encode s).length) trivial
      (Utf8.encode s ++ rest)
    have cut : splitAt? (UInt64.ofNat (Utf8.encode s).length).toNat (Utf8.encode s ++ rest)
        = some (Utf8.encode s, rest) := splitAt?_append (length_eq_toNat_iff.2 ⟨counted, rfl⟩) rest
    simp only [text, List.append_assoc, length, ok_bind, cut,
      Utf8.decode_eq_ok_iff.2 rfl]

theorem Exact.option {c : Codec α} (exact : c.Exact P) :
    c.option.Exact fun a? => ∀ a, a? = some a → P a := by
  intro bytes a? rest
  rw [decode_option_iff]
  constructor
  · rintro (⟨tagged, rfl⟩ | ⟨later, a, tagged, decoded, rfl⟩)
    · obtain ⟨-, rfl⟩ := (word8_exact bytes 0 rest).1 tagged
      exact ⟨nofun, rfl⟩
    · obtain ⟨-, rfl⟩ := (word8_exact bytes 1 later).1 tagged
      obtain ⟨good, rfl⟩ := (exact later a rest).1 decoded
      exact ⟨fun _ same => Option.some.inj same ▸ good, (List.append_assoc ..).symm⟩
  · rintro ⟨good, rfl⟩
    cases a? with
    | none => exact .inl ⟨word8_exact.decode trivial rest, rfl⟩
    | some a =>
      refine .inr ⟨c.encode a ++ rest, a, ?_, exact.decode (good a rfl) rest, rfl⟩
      rw [Codec.option, List.append_assoc]
      exact word8_exact.decode trivial _

theorem decodeMany_eq_ok_iff {c : Codec α} (exact : c.Exact P) {count : Nat} {bytes rest : Bytes}
    {as : List α} :
    decodeMany c count bytes = .ok (as, rest)
      ↔ as.length = count ∧ (∀ a ∈ as, P a) ∧ bytes = as.flatMap c.encode ++ rest := by
  induction count generalizing bytes as with
  | zero =>
    rw [decodeMany_zero_iff, List.length_eq_zero_iff]
    constructor
    · rintro ⟨rfl, rfl⟩
      exact ⟨rfl, nofun, rfl⟩
    · rintro ⟨rfl, -, rfl⟩
      exact ⟨rfl, rfl⟩
  | succ count ih =>
    rw [decodeMany_succ_iff]
    constructor
    · rintro ⟨a, others, later, decoded, decodedMany, rfl⟩
      obtain ⟨good, rfl⟩ := (exact bytes a later).1 decoded
      obtain ⟨rfl, goods, rfl⟩ := ih.1 decodedMany
      exact ⟨rfl, List.forall_mem_cons.2 ⟨good, goods⟩, (List.append_assoc ..).symm⟩
    · rintro ⟨length, goods, rfl⟩
      cases as with
      | nil => cases length
      | cons a others =>
        obtain ⟨good, goods⟩ := List.forall_mem_cons.1 goods
        have decodedMany := ih.2 ⟨Nat.succ.inj length, goods, rfl⟩
        refine ⟨a, others, _, ?_, decodedMany, rfl⟩
        rw [List.flatMap_cons, List.append_assoc]
        exact exact.decode good _

theorem Exact.list {c : Codec α} (exact : c.Exact P) :
    c.list.Exact fun as => as.length < UInt64.size ∧ ∀ a ∈ as, P a := by
  intro bytes as rest
  rw [decode_list_iff]
  constructor
  · rintro ⟨count, later, first, decodedMany⟩
    obtain ⟨-, rfl⟩ := (word64_exact bytes count later).1 first
    obtain ⟨length, goods, rfl⟩ := (decodeMany_eq_ok_iff exact).1 decodedMany
    obtain ⟨counted, rfl⟩ := length_eq_toNat_iff.1 length
    exact ⟨⟨counted, goods⟩, (List.append_assoc ..).symm⟩
  · rintro ⟨⟨counted, goods⟩, rfl⟩
    refine ⟨UInt64.ofNat as.length, as.flatMap c.encode ++ rest, ?_, ?_⟩
    · rw [Codec.list, List.append_assoc]
      exact word64_exact.decode trivial _
    · exact (decodeMany_eq_ok_iff exact).2 ⟨length_eq_toNat_iff.2 ⟨counted, rfl⟩, goods, rfl⟩

theorem variant_exact [DecidableEq α] {all : List α} (complete : ∀ a, a ∈ all) (once : all.Nodup)
    (few : all.length < UInt32.size) : (variant all).Exact fun _ => True := by
  refine word32_exact.refine fun n a _ => ?_
  have inside : all.idxOf a < all.length := List.idxOf_lt_length_of_mem (complete a)
  have place : n = UInt32.ofNat (all.idxOf a) ↔ n.toNat = all.idxOf a := by
    rw [← UInt32.toNat_inj, UInt32.toNat_ofNat_of_lt' (Nat.lt_trans inside few)]
  rw [place]
  constructor
  · intro taken
    split at taken
    · rename_i found
      obtain rfl := Except.ok.inj taken
      obtain ⟨below, same⟩ := List.getElem?_eq_some_iff.1 found
      rw [← same, once.idxOf_getElem]
    · cases taken
  · intro same
    simp only [same, List.getElem?_eq_getElem inside, List.getElem_idxOf]

theorem Exact.either {first : Codec α} {second : Codec β} (exact : first.Exact P)
    (exact' : second.Exact Q) : (first.either second).Exact (Sum.elim P Q) := by
  intro bytes v rest
  rw [decode_either_iff]
  constructor
  · rintro (⟨later, a, tagged, decoded, rfl⟩ | ⟨later, b, tagged, decoded, rfl⟩)
    · obtain ⟨-, rfl⟩ := (word32_exact bytes 0 later).1 tagged
      obtain ⟨good, rfl⟩ := (exact later a rest).1 decoded
      exact ⟨good, (List.append_assoc ..).symm⟩
    · obtain ⟨-, rfl⟩ := (word32_exact bytes 1 later).1 tagged
      obtain ⟨good, rfl⟩ := (exact' later b rest).1 decoded
      exact ⟨good, (List.append_assoc ..).symm⟩
  · rintro ⟨good, rfl⟩
    cases v with
    | inl a =>
      refine .inl ⟨first.encode a ++ rest, a, ?_, exact.decode good rest, rfl⟩
      rw [Codec.either, List.append_assoc]
      exact word32_exact.decode trivial _
    | inr b =>
      refine .inr ⟨second.encode b ++ rest, b, ?_, exact'.decode good rest, rfl⟩
      rw [Codec.either, List.append_assoc]
      exact word32_exact.decode trivial _

end Parts

/-! ## Lengths -/

@[simp] theorem length_encode_word8 (a : UInt8) : (word8.encode a).length = 1 :=
  Word.length_littleEndian 1 a.toNat

@[simp] theorem length_encode_word32 (a : UInt32) : (word32.encode a).length = 4 :=
  Word.length_littleEndian 4 a.toNat

@[simp] theorem length_encode_word64 (a : UInt64) : (word64.encode a).length = 8 :=
  Word.length_littleEndian 8 a.toNat

@[simp] theorem length_encode_text (s : String) :
    (text.encode s).length = 8 + (Utf8.encode s).length := by
  rw [text, List.length_append, length_encode_word64]

/-- The codec writes at least one byte for every value. -/
def Nonempty {α : Type} (c : Codec α) : Prop := ∀ a, 0 < (c.encode a).length

section Lengths

variable {α β : Type}

theorem word8_nonempty : word8.Nonempty := fun a => by
  rw [length_encode_word8]
  decide

theorem word32_nonempty : word32.Nonempty := fun a => by
  rw [length_encode_word32]
  decide

theorem word64_nonempty : word64.Nonempty := fun a => by
  rw [length_encode_word64]
  decide

theorem Nonempty.imap {c : Codec α} (nonempty : c.Nonempty) (f : α → β) (g : β → α) :
    (c.imap f g).Nonempty :=
  fun b => nonempty (g b)

theorem Nonempty.pair {first : Codec α} (nonempty : first.Nonempty) (second : Codec β) :
    (first.pair second).Nonempty := by
  rintro ⟨a, b⟩
  have bytes := nonempty a
  show 0 < (first.encode a ++ second.encode b).length
  rw [List.length_append]
  omega

theorem text_nonempty : text.Nonempty := by
  intro s
  rw [length_encode_text]
  omega

theorem Nonempty.length_le {c : Codec α} (nonempty : c.Nonempty) (as : List α) :
    as.length ≤ (as.flatMap c.encode).length := by
  induction as with
  | nil => exact Nat.le_refl _
  | cons a as ih =>
    have first := nonempty a
    rw [List.flatMap_cons, List.length_append, List.length_cons]
    omega

theorem length_le_flatMap (c : Codec α) {as : List α} {a : α} (member : a ∈ as) :
    (c.encode a).length ≤ (as.flatMap c.encode).length := by
  obtain ⟨before, after, rfl⟩ := List.append_of_mem member
  rw [List.flatMap_append, List.flatMap_cons, List.length_append, List.length_append]
  omega

end Lengths

/-! ## Parts of records -/

theorem txKind_exact : txKind.Exact fun _ => True :=
  variant_exact (by intro kind; cases kind <;> decide) (by decide) (by decide)

theorem outputRole_exact : outputRole.Exact fun _ => True :=
  variant_exact (by intro role; cases role <;> decide) (by decide) (by decide)

/-- Whether a word counts the data of an output. -/
def DataCounted (o : TxOutput) : Prop := ∀ data, o.data? = some data → data.length < UInt64.size

theorem data_exact : data.Exact fun bytes => bytes.length < UInt64.size :=
  word8_exact.list.congr fun _ => and_iff_left fun _ _ => trivial

theorem txOutput_exact : txOutput.Exact DataCounted :=
  ((word32_exact.pair (word64_exact.pair (data_exact.option.pair
    (word64_exact.pair outputRole_exact)))).imap fun _ _ _ =>
      ⟨fun same => same ▸ rfl, fun same => same ▸ rfl⟩).congr fun _ =>
        ⟨fun good => good.2.2.1, fun good => ⟨trivial, trivial, good, trivial, trivial⟩⟩

theorem dataCounted_of_length {o : TxOutput} (few : (txOutput.encode o).length < UInt64.size) :
    DataCounted o := by
  intro bytes some
  have long := word8_nonempty.length_le bytes
  simp only [txOutput, Codec.imap, Codec.pair, some, Codec.option, data, Codec.list,
    List.length_append, length_encode_word64] at few
  omega

theorem utxo_exact : utxo.Exact fun _ => True :=
  ((word64_exact.pair (word64_exact.pair outputRole_exact)).imap fun _ _ _ =>
    ⟨fun same => same ▸ rfl, fun same => same ▸ rfl⟩).congr fun _ =>
      ⟨fun _ => trivial, fun _ => ⟨trivial, trivial, trivial⟩⟩

end TokenLedger.Wire.Codec
