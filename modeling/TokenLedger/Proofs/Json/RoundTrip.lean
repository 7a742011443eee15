import TokenLedger.Proofs.Json.Form

/-!
Files of blocks read back. A list of blocks is read from its text exactly if every id of a transaction
and every reference in it is well-formed, and otherwise it is refused for one that is not
(`rawBlocks_round_trip`).

The members of an object may come in any order, so they are read into a draft. When they come in the
order in which they are written, each fills its own place in the draft, and the last completes it.
-/

namespace TokenLedger.Json

/-! ## Members -/

namespace Members

variable {α β : Type}

/-- Where members that are read one after the other lead from a draft: to another draft, or to none if
one of them is refused for a reference. -/
inductive Leads (m : Members α) : m.Draft → List (List Char) → Option m.Draft → Prop where
  | finished {draft : m.Draft} : Leads m draft [] (some draft)
  | member {draft : m.Draft} {last? : Option m.Draft} {name : String} {value : List Char}
      {parts : List (List Char)} (read : m.Draft → Reader m.Draft) (next : m.Draft)
      (named : m.named? name = some read)
      (taken : ∀ rest, AtEnd rest → read draft (':' :: (value ++ rest)) = .ok (next, rest))
      (others : Leads m next parts last?) : Leads m draft (writeMember name value :: parts) last?
  | refused {draft : m.Draft} {name : String} {value : List Char} {parts : List (List Char)}
      (read : m.Draft → Reader m.Draft) (named : m.named? name = some read)
      (bad : ∀ rest, AtEnd rest → Refused (read draft (':' :: (value ++ rest)))) :
      Leads m draft (writeMember name value :: parts) none

/-- The members of a value, which have these names, lead to it if `P` holds of it, and are refused if
not. -/
structure Discerns (m : Members α) (names : List String) (P : α → Prop) : Prop where
  named : ∀ name, m.named? name ≠ none → name ∈ names
  reads : ∀ a, P a → ∃ draft, m.Leads m.blank (m.write a) (some draft) ∧ m.finish draft = .ok a
  refuses : ∀ a, ¬ P a → m.Leads m.blank (m.write a) none

variable {m : Members α} {n : Members β} {names names' : List String} {P : α → Prop}
  {Q : β → Prop}

theorem Leads.append {draft next : m.Draft} {last? : Option m.Draft} {parts parts' : List (List Char)}
    (first : m.Leads draft parts (some next)) (second : m.Leads next parts' last?) :
    m.Leads draft (parts ++ parts') last? := by
  generalize reached : some next = next? at first
  induction first with
  | finished =>
    cases reached
    exact second
  | member read _ named taken _ ih => exact .member read _ named taken (ih reached)
  | refused => cases reached

theorem Leads.append_refused {draft : m.Draft} {parts : List (List Char)}
    (refused : m.Leads draft parts none) (parts' : List (List Char)) :
    m.Leads draft (parts ++ parts') none := by
  generalize reached : (none : Option m.Draft) = next? at refused
  induction refused with
  | finished => cases reached
  | member read _ named taken _ ih => exact .member read _ named taken (ih reached)
  | refused read named bad => exact .refused read named bad

/-- Members of the first part leave the draft of the second as it is. -/
theorem Leads.left {draft : m.Draft} {last? : Option m.Draft} {parts : List (List Char)}
    (leads : m.Leads draft parts last?) (other : n.Draft) :
    (m.and n).Leads (draft, other) parts (last?.map fun last => (last, other)) := by
  have named_and : ∀ {name : String} {read : m.Draft → Reader m.Draft}, m.named? name = some read →
      (m.and n).named? name
        = some fun draft cs => read draft.1 cs >>= fun v => pure ((v.1, draft.2), v.2) := by
    intro name read named
    simp only [Members.and, named]
  induction leads with
  | finished => exact .finished
  | member read next named taken _ ih =>
    refine .member _ (next, other) (named_and named) (fun rest ends => ?_) ih
    simp only [taken rest ends]
    rfl
  | refused read named bad =>
    exact .refused _ (named_and named) fun rest ends => (bad rest ends).bind _

/-- Members of the second part leave the draft of the first as it is, if their names are others. -/
theorem Leads.right (apart : ∀ name, n.named? name ≠ none → m.named? name = none) {draft : n.Draft}
    {last? : Option n.Draft} {parts : List (List Char)} (leads : n.Leads draft parts last?)
    (other : m.Draft) :
    (m.and n).Leads (other, draft) parts (last?.map fun last => (other, last)) := by
  have named_and : ∀ {name : String} {read : n.Draft → Reader n.Draft}, n.named? name = some read →
      (m.and n).named? name
        = some fun draft cs => read draft.2 cs >>= fun v => pure ((draft.1, v.1), v.2) := by
    intro name read named
    have unnamed := apart name (named ▸ Option.some_ne_none read)
    simp only [Members.and, named, unnamed]
  induction leads with
  | finished => exact .finished
  | member read next named taken _ ih =>
    refine .member _ (other, next) (named_and named) (fun rest ends => ?_) ih
    simp only [taken rest ends]
    rfl
  | refused read named bad =>
    exact .refused _ (named_and named) fun rest ends => (bad rest ends).bind _

theorem one_discerns {f : Form α} (discerns : f.Discerns P) (name : String)
    (default? : Option α := none) : (one name f default?).Discerns [name] P where
  named s known := by
    by_contra other
    exact known (if_neg fun same => other (List.mem_singleton.2 same))
  reads a good := by
    refine ⟨some a, .member _ (some a) (if_pos rfl) (fun rest ends => ?_) .finished, rfl⟩
    have read := discerns.reads a good rest ends
    show (f.read (f.write a ++ rest) >>= fun v => pure (some v.1, v.2)) = _
    rw [read]
    rfl
  refuses a bad := .refused _ (if_pos rfl) fun rest ends =>
    (discerns.refuses a bad rest ends).bind fun v => pure (some v.1, v.2)

/-- A value that is refused in the second part is found after all of the first was read. -/
theorem Discerns.and (discerns : m.Discerns names P) (discerns' : n.Discerns names' Q)
    (apart : ∀ name ∈ names', name ∉ names) :
    (m.and n).Discerns (names ++ names') fun v => P v.1 ∧ Q v.2 := by
  have others : ∀ name, n.named? name ≠ none → m.named? name = none := by
    intro name known
    by_contra known'
    exact apart name (discerns'.named name known) (discerns.named name known')
  refine ⟨fun name known => ?_, ?_, ?_⟩
  · by_contra unknown
    rw [List.mem_append, not_or] at unknown
    have absent := not_imp_comm.1 (discerns.named name) unknown.1
    have absent' := not_imp_comm.1 (discerns'.named name) unknown.2
    exact known (by simp only [Members.and, absent, absent'])
  · rintro ⟨a, b⟩ ⟨good, good'⟩
    obtain ⟨draft, leads, finished⟩ := discerns.reads a good
    obtain ⟨draft', leads', finished'⟩ := discerns'.reads b good'
    refine ⟨(draft, draft'), (leads.left n.blank).append (leads'.right others draft), ?_⟩
    simp only [Members.and, finished, finished', Bind.bind, Except.bind]
    rfl
  · rintro ⟨a, b⟩ bad
    by_cases good : P a
    · obtain ⟨draft, leads, -⟩ := discerns.reads a good
      have refused := discerns'.refuses b fun good' => bad ⟨good, good'⟩
      exact (leads.left n.blank).append (refused.right others draft)
    · exact ((discerns.refuses a good).left n.blank).append_refused _

/-! ## Objects -/

theorem nextName_of_text (name : String) (rest : List Char) :
    nextName true (writeText name ++ rest)
        = .ok (some (name.toList.flatMap writeChar ++ '"' :: rest))
      ∧ nextName false (',' :: (writeText name ++ rest))
        = .ok (some (name.toList.flatMap writeChar ++ '"' :: rest)) := by
  rw [writeText_append]
  exact ⟨rfl, rfl⟩

/-- Reading one more member of an object. -/
theorem objectMembers_afterCommas {name : String} {read : m.Draft → Reader m.Draft}
    (named : m.named? name = some read) (value : List Char) (parts : List (List Char))
    (draft : m.Draft) (fuel : Nat) (rest : List Char) :
    objectMembers false m.readMember (fuel + 1) false draft
        (afterCommas (writeMember name value :: parts) ++ rest)
      = read draft (':' :: (value ++ (afterCommas parts ++ rest))) >>= fun v =>
        objectMembers false m.readMember fuel false v.1 v.2 := by
  obtain ⟨-, later⟩ := nextName_of_text name (':' :: (value ++ (afterCommas parts ++ rest)))
  have quoted := quotedText_flatMap_writeChar name (':' :: (value ++ (afterCommas parts ++ rest)))
  simp only [afterCommas_cons, writeMember, List.append_assoc, List.cons_append, objectMembers, later,
    Bind.bind, Except.bind, quoted, readMember, named]

theorem objectMembers_first (m : Members α) (name : String) (value : List Char) (draft : m.Draft)
    (fuel : Nat) (rest : List Char) :
    objectMembers false m.readMember fuel true draft (writeMember name value ++ rest)
      = objectMembers false m.readMember fuel false draft
        (',' :: (writeMember name value ++ rest)) := by
  obtain ⟨first, later⟩ := nextName_of_text name (':' :: (value ++ rest))
  cases fuel with
  | zero => rfl
  | succ fuel =>
    simp only [writeMember, List.append_assoc, List.cons_append, objectMembers, first, later]
    rfl

/-- An object is read to where its members lead. -/
theorem Leads.objectMembers {draft : m.Draft} {last? : Option m.Draft} {parts : List (List Char)}
    (leads : m.Leads draft parts last?) {fuel : Nat} (enough : parts.length < fuel)
    (rest : List Char) :
    (∀ last ∈ last?, Json.objectMembers false m.readMember fuel false draft
        (afterCommas parts ++ '}' :: rest) = .ok (last, rest))
      ∧ (last? = none → Refused (Json.objectMembers false m.readMember fuel false draft
        (afterCommas parts ++ '}' :: rest))) := by
  induction leads generalizing fuel with
  | finished =>
    obtain ⟨fuel, rfl⟩ := Nat.exists_eq_add_of_le' enough
    refine ⟨fun last same => ?_, nofun⟩
    cases same
    rfl
  | @member draft last? name value parts read next named taken _ ih =>
    rw [List.length_cons] at enough
    obtain ⟨fuel, rfl⟩ := Nat.exists_eq_add_of_le' (show 1 ≤ fuel by omega)
    have enough : parts.length < fuel := by omega
    have taken := taken _ (atEnd_afterCommas parts (Or.inr rfl) rest)
    rw [objectMembers_afterCommas named, taken]
    exact ih enough
  | @refused draft name value parts read named bad =>
    rw [List.length_cons] at enough
    obtain ⟨fuel, rfl⟩ := Nat.exists_eq_add_of_le' (show 1 ≤ fuel by omega)
    have bad := bad _ (atEnd_afterCommas parts (Or.inr rfl) rest)
    refine ⟨nofun, fun _ => ?_⟩
    rw [objectMembers_afterCommas named]
    exact bad.bind _

/-- There is no comma in front of the first member. -/
theorem Leads.objectMembers_first {draft : m.Draft} {last? : Option m.Draft}
    {parts : List (List Char)} (leads : m.Leads draft parts last?) (fuel : Nat) (rest : List Char) :
    Json.objectMembers false m.readMember fuel true draft (withCommas parts ++ '}' :: rest)
      = Json.objectMembers false m.readMember fuel false draft
        (afterCommas parts ++ '}' :: rest) := by
  cases leads with
  | finished => cases fuel <;> rfl
  | member =>
    rw [withCommas_cons, afterCommas_cons, List.append_assoc, List.cons_append, List.append_assoc,
      Members.objectMembers_first]
  | refused =>
    rw [withCommas_cons, afterCommas_cons, List.append_assoc, List.cons_append, List.append_assoc,
      Members.objectMembers_first]

theorem Discerns.record (discerns : m.Discerns names P) (name : String) :
    (m.record name).Discerns P := by
  have opened : ∀ (a : α) (rest : List Char) {last? : Option m.Draft},
      m.Leads m.blank (m.write a) last? → ∃ fuel, (m.write a).length < fuel
        ∧ (m.record name).read ((m.record name).write a ++ rest)
          = (Json.objectMembers false m.readMember fuel false m.blank
              (afterCommas (m.write a) ++ '}' :: rest) >>= fun v =>
            m.finish v.1 >>= fun a => pure (a, v.2)) := by
    intro a rest last? leads
    refine ⟨_, length_lt_length_text (m.write a) '}' rest, ?_⟩
    rw [← leads.objectMembers_first]
    simp only [Members.record, List.cons_append, List.append_assoc, List.nil_append]
    rfl
  refine ⟨fun a => ⟨'{', _, rfl, by decide, by decide⟩, fun a good rest _ => ?_,
    fun a bad rest _ => ?_⟩
  · obtain ⟨draft, leads, finished⟩ := discerns.reads a good
    obtain ⟨fuel, enough, read⟩ := opened a rest leads
    rw [read, (leads.objectMembers enough rest).1 draft rfl]
    simp only [Bind.bind, Except.bind, finished]
    rfl
  · have leads := discerns.refuses a bad
    obtain ⟨fuel, enough, read⟩ := opened a rest leads
    rw [read]
    exact ((leads.objectMembers enough rest).2 rfl).bind _

end Members

end TokenLedger.Json

/-! ## Blocks -/

namespace TokenLedger

/-- Whether the id of a transaction can be part of a reference, and so can the ids that it names. -/
def RawTx.Formed (t : RawTx) : Prop := WellFormedId t.id ∧ ∀ r ∈ t.inputs, WellFormedId r.txId

instance (t : RawTx) : Decidable t.Formed := inferInstanceAs (Decidable (_ ∧ _))

/-- Whether all ids in a block can be parts of references. -/
def RawBlock.Formed (b : RawBlock) : Prop := ∀ t ∈ b.txs, t.Formed

instance (b : RawBlock) : Decidable b.Formed :=
  inferInstanceAs (Decidable (∀ t ∈ b.txs, t.Formed))

namespace Json.Form

open Members

theorem rawOutput_discerns : rawOutput.Discerns fun _ => True := by
  have members := (one_discerns word64_discerns "value").and
    (one_discerns option_hex_discerns "op_return_data" (some none)) (by decide)
  exact ((members.record "struct RawTxOutput").imap fun _ => rfl).congr fun _ =>
    iff_of_true trivial ⟨trivial, trivial⟩

theorem rawTx_discerns : rawTx.Discerns RawTx.Formed := by
  have members := (one_discerns txId_discerns "id").and
    ((one_discerns reference_discerns.list "inputs").and
      (one_discerns rawOutput_discerns.list "outputs") (by decide)) (by decide)
  refine ((members.record "struct RawTx").imap fun _ => rfl).congr fun t => ?_
  exact and_congr_right fun _ => (and_iff_left fun _ _ => trivial).symm

theorem rawBlock_discerns : rawBlock.Discerns RawBlock.Formed := by
  have members := (one_discerns word64_discerns "height").and
    ((one_discerns string_discerns "hash").and
      ((one_discerns string_discerns "previous_block_hash").and
        (one_discerns rawTx_discerns.list "txs") (by decide)) (by decide)) (by decide)
  refine ((members.record "struct RawBlock").imap fun _ => rfl).congr fun b => ?_
  exact ⟨fun formed => ⟨trivial, trivial, trivial, formed⟩, fun all => all.2.2.2⟩

theorem rawBlocks_discerns : rawBlocks.Discerns fun blocks => ∀ b ∈ blocks, b.Formed :=
  rawBlock_discerns.list

/-- A list of blocks reads back from its text exactly if all ids of transactions and all references in
it are well-formed, whatever its hashes, values and data are. If some are not, it is refused for one of
them. -/
theorem rawBlocks_round_trip (blocks : List RawBlock) :
    (rawBlocks.ofText (rawBlocks.text blocks) = .ok blocks ↔ ∀ b ∈ blocks, b.Formed)
      ∧ ((∃ e, rawBlocks.ofText (rawBlocks.text blocks) = .error (.mismatch (.notReference e)))
        ↔ ¬ ∀ b ∈ blocks, b.Formed) := by
  by_cases formed : ∀ b ∈ blocks, b.Formed
  · have read := rawBlocks_discerns.ofText_text formed
    refine ⟨iff_of_true read formed, iff_of_false ?_ (not_not_intro formed)⟩
    rintro ⟨e, refused⟩
    rw [read] at refused
    cases refused
  · obtain ⟨e, refused⟩ := rawBlocks_discerns.ofText_text_refused formed
    refine ⟨iff_of_false ?_ formed, iff_of_true ⟨e, refused⟩ formed⟩
    intro read
    rw [refused] at read
    cases read

end Json.Form

end TokenLedger
