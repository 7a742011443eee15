import Mathlib.Data.List.Forall2
import Mathlib.Data.Sum.Basic
import TokenLedger.Proofs.OutputRef
import TokenLedger.Proofs.Wire.Exact
import TokenLedger.Sync.Message

/-!
What bytes spell. Before references are read they are texts, and in this form a codec reads just what
it writes. Then the texts are read, which may lose zeros in front of a place, and nothing else. So what
is read is a value together with its spelling, and only a spelling with such zeros is not the one that
is written (`encode_eq_iff`).
-/

namespace TokenLedger.Wire

open Codec Sync

/-- The spellings of what a codec reads and writes. -/
structure Spelling {α : Type} (c : Codec α) where
  /-- Values with texts in the place of references. -/
  Spelled : Type
  /-- The same format without a look into these texts. -/
  codec : Codec Spelled
  /-- Whether words count all lists and texts. -/
  Counted : Spelled → Prop
  /-- Whether the texts are read as the references of a value. -/
  StandsFor : Spelled → α → Prop
  /-- The spelling that is written. -/
  spell : α → Spelled
  /-- The texts in the place of references. -/
  texts : Spelled → List String
  exact : codec.Exact Counted
  decode_iff : ∀ bytes a rest, c.decode bytes = .ok (a, rest)
    ↔ ∃ l, codec.decode bytes = .ok (l, rest) ∧ StandsFor l a
  encode_spell : ∀ a, codec.encode (spell a) = c.encode a
  /-- Whoever holds the bytes in memory has a word that counts them. -/
  counted_of_length : ∀ l, (codec.encode l).length < UInt64.size → Counted l
  counted_spell : ∀ l a, StandsFor l a → Counted l → Counted (spell a)
  standsFor_spell : ∀ l a, StandsFor l a → StandsFor (spell a) a
  eq_spell_iff : ∀ l a, StandsFor l a → (l = spell a ↔ ∀ s ∈ texts l, ¬ OutputRef.Padded s)

namespace Spelling

section Parts

variable {α β : Type} {c : Codec α} {d : Codec β}

/-- Without references there is nothing to spell. -/
def ofExact {P : α → Prop} (exact : c.Exact P)
    (counted : ∀ a, (c.encode a).length < UInt64.size → P a) : Spelling c where
  Spelled := α
  codec := c
  Counted := P
  StandsFor l a := l = a
  spell a := a
  texts _ := []
  exact := exact
  decode_iff _ a _ := ⟨fun read => ⟨a, read, rfl⟩, fun ⟨_, read, same⟩ => same ▸ read⟩
  encode_spell _ := rfl
  counted_of_length := counted
  counted_spell _ _ same counted := same ▸ counted
  standsFor_spell _ _ _ := rfl
  eq_spell_iff _ _ same := iff_of_true same nofun

/-- Values of a fixed size. -/
def ofWords (exact : c.Exact fun _ => True) : Spelling c := ofExact exact fun _ _ => trivial

theorem textCounted_of_length (s : String) (few : (Codec.text.encode s).length < UInt64.size) :
    TextCounted s := by
  rw [length_encode_text] at few
  unfold TextCounted
  omega

def text : Spelling Codec.text := ofExact text_exact textCounted_of_length

theorem decode_reference_iff {bytes rest : Bytes} {r : OutputRef} :
    Codec.reference.decode bytes = .ok (r, rest)
      ↔ ∃ s, Codec.text.decode bytes = .ok (s, rest) ∧ OutputRef.parse s = .ok r := by
  rw [Codec.reference, decode_refine_iff]
  refine exists_congr fun s => and_congr_right fun _ => ?_
  cases OutputRef.parse s with
  | ok r' => rw [Except.ok.injEq, Except.ok.injEq]
  | error e => exact ⟨nofun, nofun⟩

/-- A reference is spelled by a text that reads as it. -/
def reference : Spelling Codec.reference where
  Spelled := String
  codec := Codec.text
  Counted := TextCounted
  StandsFor s r := OutputRef.parse s = .ok r
  spell := OutputRef.text
  texts s := [s]
  exact := text_exact
  decode_iff _ _ _ := decode_reference_iff
  encode_spell _ := rfl
  counted_of_length := textCounted_of_length
  counted_spell _ _ parsed counted :=
    Nat.lt_of_le_of_lt (OutputRef.length_encode_text_le parsed) counted
  standsFor_spell _ _ parsed := OutputRef.parse_text (OutputRef.parse_eq_ok_iff.1 parsed).1
  eq_spell_iff _ _ parsed := by
    rw [OutputRef.eq_text_iff parsed, List.forall_mem_singleton]

def imap (s : Spelling c) (f : α → β) (g : β → α) (inverse : ∀ a b, f a = b ↔ a = g b) :
    Spelling (c.imap f g) where
  Spelled := s.Spelled
  codec := s.codec
  Counted := s.Counted
  StandsFor l b := s.StandsFor l (g b)
  spell b := s.spell (g b)
  texts := s.texts
  exact := s.exact
  decode_iff bytes b rest := by
    rw [decode_imap_iff, ← s.decode_iff]
    constructor
    · rintro ⟨a, decoded, taken⟩
      rwa [← (inverse a b).1 taken]
    · intro decoded
      exact ⟨g b, decoded, (inverse (g b) b).2 rfl⟩
  encode_spell b := s.encode_spell (g b)
  counted_of_length := s.counted_of_length
  counted_spell l b := s.counted_spell l (g b)
  standsFor_spell l b := s.standsFor_spell l (g b)
  eq_spell_iff l b := s.eq_spell_iff l (g b)

theorem counted_pair_of_length (s : Spelling c) (t : Spelling d) (l : s.Spelled × t.Spelled)
    (few : ((s.codec.pair t.codec).encode l).length < UInt64.size) :
    s.Counted l.1 ∧ t.Counted l.2 := by
  simp only [Codec.pair, List.length_append] at few
  exact ⟨s.counted_of_length l.1 (by omega), t.counted_of_length l.2 (by omega)⟩

def pair (s : Spelling c) (t : Spelling d) : Spelling (c.pair d) where
  Spelled := s.Spelled × t.Spelled
  codec := s.codec.pair t.codec
  Counted l := s.Counted l.1 ∧ t.Counted l.2
  StandsFor l v := s.StandsFor l.1 v.1 ∧ t.StandsFor l.2 v.2
  spell v := (s.spell v.1, t.spell v.2)
  texts l := s.texts l.1 ++ t.texts l.2
  exact := s.exact.pair t.exact
  decode_iff bytes v rest := by
    simp only [decode_pair_iff, s.decode_iff, t.decode_iff]
    constructor
    · rintro ⟨later, ⟨l, spelled, standsFor⟩, m, spelled', standsFor'⟩
      exact ⟨(l, m), ⟨later, spelled, spelled'⟩, standsFor, standsFor'⟩
    · rintro ⟨⟨l, m⟩, ⟨later, spelled, spelled'⟩, standsFor, standsFor'⟩
      exact ⟨later, ⟨l, spelled, standsFor⟩, m, spelled', standsFor'⟩
  encode_spell v := by
    simp only [Codec.pair, s.encode_spell, t.encode_spell]
  counted_of_length := s.counted_pair_of_length t
  counted_spell _ _ standsFor counted :=
    ⟨s.counted_spell _ _ standsFor.1 counted.1, t.counted_spell _ _ standsFor.2 counted.2⟩
  standsFor_spell _ _ standsFor :=
    ⟨s.standsFor_spell _ _ standsFor.1, t.standsFor_spell _ _ standsFor.2⟩
  eq_spell_iff _ _ standsFor := by
    rw [Prod.ext_iff, s.eq_spell_iff _ _ standsFor.1, t.eq_spell_iff _ _ standsFor.2,
      List.forall_mem_append]

theorem decodeMany_iff (s : Spelling c) (count : Nat) (bytes : Bytes) (as : List α) (rest : Bytes) :
    decodeMany c count bytes = .ok (as, rest)
      ↔ ∃ ls, decodeMany s.codec count bytes = .ok (ls, rest) ∧ List.Forall₂ s.StandsFor ls as := by
  induction count generalizing bytes as with
  | zero =>
    simp only [decodeMany_zero_iff]
    constructor
    · rintro ⟨rfl, same⟩
      exact ⟨[], ⟨rfl, same⟩, .nil⟩
    · rintro ⟨ls, ⟨rfl, same⟩, standFor⟩
      exact ⟨List.forall₂_nil_left_iff.1 standFor, same⟩
  | succ count ih =>
    simp only [decodeMany_succ_iff, s.decode_iff, ih]
    constructor
    · rintro ⟨a, others, later, ⟨l, spelled, standsFor⟩, ⟨ls, spelledMany, standFor⟩, rfl⟩
      exact ⟨l :: ls, ⟨l, ls, later, spelled, spelledMany, rfl⟩, .cons standsFor standFor⟩
    · rintro ⟨-, ⟨l, ls, later, spelled, spelledMany, rfl⟩, together⟩
      obtain ⟨a, others, standsFor, standFor, rfl⟩ := List.forall₂_cons_left_iff.1 together
      exact ⟨a, others, later, ⟨l, spelled, standsFor⟩, ⟨ls, spelledMany, standFor⟩, rfl⟩

theorem forall₂_standsFor_spell (s : Spelling c) {ls : List s.Spelled} {as : List α}
    (standFor : List.Forall₂ s.StandsFor ls as) :
    List.Forall₂ s.StandsFor (as.map s.spell) as := by
  induction standFor with
  | nil => exact .nil
  | cons standsFor _ ih => exact .cons (s.standsFor_spell _ _ standsFor) ih

theorem counted_map_spell (s : Spelling c) {ls : List s.Spelled} {as : List α}
    (standFor : List.Forall₂ s.StandsFor ls as) (counted : ∀ l ∈ ls, s.Counted l) :
    ∀ l ∈ as.map s.spell, s.Counted l := by
  induction standFor with
  | nil => exact nofun
  | cons standsFor _ ih =>
    rw [List.forall_mem_cons] at counted
    rw [List.map_cons, List.forall_mem_cons]
    exact ⟨s.counted_spell _ _ standsFor counted.1, ih counted.2⟩

theorem eq_map_spell_iff (s : Spelling c) {ls : List s.Spelled} {as : List α}
    (standFor : List.Forall₂ s.StandsFor ls as) :
    ls = as.map s.spell ↔ ∀ t ∈ ls.flatMap s.texts, ¬ OutputRef.Padded t := by
  induction standFor with
  | nil => exact iff_of_true rfl nofun
  | cons standsFor _ ih =>
    rw [List.map_cons, List.cons.injEq, s.eq_spell_iff _ _ standsFor, ih, List.flatMap_cons,
      List.forall_mem_append]

theorem counted_list_of_length (s : Spelling c) (nonempty : s.codec.Nonempty) (ls : List s.Spelled)
    (few : (s.codec.list.encode ls).length < UInt64.size) :
    ls.length < UInt64.size ∧ ∀ l ∈ ls, s.Counted l := by
  have many := nonempty.length_le ls
  simp only [Codec.list, List.length_append, length_encode_word64] at few
  refine ⟨by omega, fun l member => s.counted_of_length l ?_⟩
  have part := length_le_flatMap s.codec member
  omega

def list (s : Spelling c) (nonempty : s.codec.Nonempty) : Spelling c.list where
  Spelled := List s.Spelled
  codec := s.codec.list
  Counted ls := ls.length < UInt64.size ∧ ∀ l ∈ ls, s.Counted l
  StandsFor := List.Forall₂ s.StandsFor
  spell := List.map s.spell
  texts ls := ls.flatMap s.texts
  exact := s.exact.list
  decode_iff bytes as rest := by
    simp only [decode_list_iff, s.decodeMany_iff]
    constructor
    · rintro ⟨count, later, length, ls, spelledMany, standFor⟩
      exact ⟨ls, ⟨count, later, length, spelledMany⟩, standFor⟩
    · rintro ⟨ls, ⟨count, later, length, spelledMany⟩, standFor⟩
      exact ⟨count, later, length, ls, spelledMany, standFor⟩
  encode_spell as := by
    simp only [Codec.list, List.length_map, List.flatMap_map, s.encode_spell]
  counted_of_length := s.counted_list_of_length nonempty
  counted_spell _ _ standFor counted := by
    rw [List.length_map, ← standFor.length_eq]
    exact ⟨counted.1, s.counted_map_spell standFor counted.2⟩
  standsFor_spell _ _ standFor := s.forall₂_standsFor_spell standFor
  eq_spell_iff _ _ standFor := s.eq_map_spell_iff standFor

theorem counted_either_of_length (s : Spelling c) (t : Spelling d) (l : s.Spelled ⊕ t.Spelled)
    (few : ((s.codec.either t.codec).encode l).length < UInt64.size) :
    Sum.elim s.Counted t.Counted l := by
  cases l with
  | inl l =>
    simp only [Codec.either, List.length_append, length_encode_word32] at few
    exact s.counted_of_length l (by omega)
  | inr l =>
    simp only [Codec.either, List.length_append, length_encode_word32] at few
    exact t.counted_of_length l (by omega)

def either (s : Spelling c) (t : Spelling d) : Spelling (c.either d) where
  Spelled := s.Spelled ⊕ t.Spelled
  codec := s.codec.either t.codec
  Counted := Sum.elim s.Counted t.Counted
  StandsFor := Sum.LiftRel s.StandsFor t.StandsFor
  spell := Sum.map s.spell t.spell
  texts := Sum.elim s.texts t.texts
  exact := s.exact.either t.exact
  decode_iff bytes v rest := by
    simp only [decode_either_iff, s.decode_iff, t.decode_iff]
    constructor
    · rintro (⟨later, a, tagged, ⟨l, spelled, standsFor⟩, rfl⟩
        | ⟨later, b, tagged, ⟨l, spelled, standsFor⟩, rfl⟩)
      · exact ⟨.inl l, .inl ⟨later, l, tagged, spelled, rfl⟩, .inl standsFor⟩
      · exact ⟨.inr l, .inr ⟨later, l, tagged, spelled, rfl⟩, .inr standsFor⟩
    · rintro ⟨-, ⟨later, l, tagged, spelled, rfl⟩ | ⟨later, l, tagged, spelled, rfl⟩, standsFor⟩
      · cases standsFor with
        | inl standsFor => exact .inl ⟨later, _, tagged, ⟨l, spelled, standsFor⟩, rfl⟩
      · cases standsFor with
        | inr standsFor => exact .inr ⟨later, _, tagged, ⟨l, spelled, standsFor⟩, rfl⟩
  encode_spell v := by
    cases v with
    | inl a => simp only [Codec.either, Sum.map_inl, s.encode_spell]
    | inr b => simp only [Codec.either, Sum.map_inr, t.encode_spell]
  counted_of_length := s.counted_either_of_length t
  counted_spell _ _ standsFor counted := by
    cases standsFor with
    | inl standsFor => exact s.counted_spell _ _ standsFor counted
    | inr standsFor => exact t.counted_spell _ _ standsFor counted
  standsFor_spell _ _ standsFor := by
    cases standsFor with
    | inl standsFor => exact .inl (s.standsFor_spell _ _ standsFor)
    | inr standsFor => exact .inr (t.standsFor_spell _ _ standsFor)
  eq_spell_iff _ _ standsFor := by
    cases standsFor with
    | inl standsFor => exact Sum.inl_injective.eq_iff.trans (s.eq_spell_iff _ _ standsFor)
    | inr standsFor => exact Sum.inr_injective.eq_iff.trans (t.eq_spell_iff _ _ standsFor)

end Parts

section Whole

variable {α : Type} {c : Codec α} (s : Spelling c) {l : s.Spelled} {a : α}

theorem decode_encode (counted : s.Counted l) (standsFor : s.StandsFor l a) (rest : Bytes) :
    c.decode (s.codec.encode l ++ rest) = .ok (a, rest) :=
  (s.decode_iff ..).2 ⟨l, s.exact.decode counted rest, standsFor⟩

theorem decode_spell (counted : s.Counted (s.spell a)) (standsFor : s.StandsFor (s.spell a) a)
    (rest : Bytes) : c.decode (c.encode a ++ rest) = .ok (a, rest) := by
  rw [← s.encode_spell]
  exact s.decode_encode counted standsFor rest

theorem exists_of_decode {bytes rest : Bytes} (read : c.decode bytes = .ok (a, rest)) :
    ∃ l, s.Counted l ∧ s.StandsFor l a ∧ bytes = s.codec.encode l ++ rest := by
  obtain ⟨l, spelled, standsFor⟩ := (s.decode_iff ..).1 read
  obtain ⟨counted, same⟩ := (s.exact ..).1 spelled
  exact ⟨l, counted, standsFor, same⟩

/-- Nothing is read off a part of a spelling: with the rest behind it there would be a second one. -/
theorem decode_prefix_error (counted : s.Counted l) {front : Bytes}
    (part : front <+: s.codec.encode l) (less : front ≠ s.codec.encode l) :
    ∃ e, c.decode front = .error e := by
  cases read : c.decode front with
  | error e => exact ⟨e, rfl⟩
  | ok v =>
    exfalso
    obtain ⟨back, whole⟩ := part
    obtain ⟨m, counted', -, same⟩ := s.exists_of_decode read
    -- The whole would be read with nothing left and with `back` left.
    have once := s.exact.decode counted []
    have twice := s.exact.decode counted' (v.2 ++ back)
    rw [List.append_nil, ← whole, same, List.append_assoc, twice] at once
    have nothing := congrArg Prod.snd (Except.ok.inj once)
    obtain ⟨-, rfl⟩ := List.append_eq_nil_iff.1 nothing
    exact less (by rw [← whole, List.append_nil])

/-- What was read is written back as it was unless there is padding in one of its texts. -/
theorem encode_eq_iff (counted : s.Counted l) (standsFor : s.StandsFor l a) :
    c.encode a = s.codec.encode l ↔ ∀ t ∈ s.texts l, ¬ OutputRef.Padded t := by
  rw [← s.eq_spell_iff l a standsFor, ← s.encode_spell]
  constructor
  · intro same
    have read := s.exact.decode (s.counted_spell l a standsFor counted) []
    rw [same, s.exact.decode counted] at read
    exact congrArg Prod.fst (Except.ok.inj read)
  · rintro rfl
    rfl

end Whole

/-! ## Records and messages -/

def txInput : Spelling Codec.txInput :=
  (reference.pair (ofExact word64_exact.option fun _ _ _ _ => trivial)).imap _ _ fun _ _ =>
    ⟨fun same => same ▸ rfl, fun same => same ▸ rfl⟩

theorem txInput_nonempty : txInput.codec.Nonempty := text_nonempty.pair _

theorem txOutput_nonempty : Codec.txOutput.Nonempty := (word32_nonempty.pair _).imap _ _

def tx : Spelling Codec.tx :=
  (text.pair ((ofWords word64_exact).pair ((txInput.list txInput_nonempty).pair
    (((ofExact txOutput_exact fun _ => dataCounted_of_length).list txOutput_nonempty).pair
      ((ofWords txKind_exact).pair (ofWords word64_exact)))))).imap _ _ fun _ _ =>
        ⟨fun same => same ▸ rfl, fun same => same ▸ rfl⟩

theorem tx_nonempty : tx.codec.Nonempty := text_nonempty.pair _

def block : Spelling Codec.block :=
  ((ofWords word64_exact).pair (text.pair (text.pair (tx.list tx_nonempty)))).imap _ _ fun _ _ =>
    ⟨fun same => same ▸ rfl, fun same => same ▸ rfl⟩

theorem block_nonempty : block.codec.Nonempty := word64_nonempty.pair _

def utxo : Spelling Codec.utxo := ofWords utxo_exact

def request : Spelling Codec.request :=
  ((ofWords word64_exact).pair (ofWords int32_exact)).imap _ _ fun _ _ =>
    ⟨fun same => same ▸ rfl, fun same => same ▸ rfl⟩

def response : Spelling Codec.response :=
  ((block.list block_nonempty).pair (ofWords int32_exact)).imap _ _ fun _ _ =>
    ⟨fun same => same ▸ rfl, fun same => same ▸ rfl⟩

def message : Spelling Codec.message :=
  (request.either response).imap _ _ fun v m => by
    cases v <;> cases m <;> simp

end Spelling

end TokenLedger.Wire
