import TokenLedger.Proofs.Json.RoundTrip
import TokenLedger.Proofs.Steps

/-!
What is loaded is well-formed. From whatever text a list of blocks is read, with members in any order
and others among them or with lists in the place of objects, all ids of transactions and all references
in it are well-formed (`formed_of_ofText`): nothing but the forms of the ids makes any.
-/

namespace TokenLedger.Json

namespace Form

variable {α β : Type} {f : Form α} {P : α → Prop} {Q : β → Prop}

/-- Whatever the form reads, `P` holds of it. -/
def Yields (f : Form α) (P : α → Prop) : Prop :=
  ∀ cs a rest, f.read cs = .ok (a, rest) → P a

theorem yields_of_forall (f : Form α) (all : ∀ a, P a) : f.Yields P := fun _ a _ _ => all a

theorem Yields.ofText (yields : f.Yields P) {s : String} {a : α} (loaded : f.ofText s = .ok a) :
    P a := by
  unfold Form.ofText at loaded
  obtain ⟨⟨a', rest⟩, read, ended⟩ := bind_eq_ok_iff.1 loaded
  dsimp only at ended
  split at ended
  · cases ended
    exact yields _ _ _ read
  · cases ended

theorem Yields.imap (yields : f.Yields P) {forth : α → β} {back : β → α}
    (holds : ∀ a, P a → Q (forth a)) : (f.imap forth back).Yields Q := by
  intro cs b rest read
  obtain ⟨⟨a, _⟩, inner, same⟩ := bind_eq_ok_iff.1 read
  cases same
  exact holds a (yields _ _ _ inner)

theorem refine_yields {forth : α → Except Mismatch β} {back : β → α}
    (taken : ∀ a b, forth a = .ok b → Q b) : (f.refine forth back).Yields Q := by
  intro cs b rest read
  obtain ⟨⟨a, _⟩, _, checked⟩ := bind_eq_ok_iff.1 read
  dsimp only at checked
  split at checked
  · rename_i b' accepted
    cases checked
    exact taken a b accepted
  · cases checked

theorem txId_yields : txId.Yields WellFormedId := by
  refine refine_yields fun s s' taken => ?_
  split at taken
  · rename_i checked
    cases taken
    exact checkTxId_eq_ok_iff.1 checked
  · cases taken

theorem reference_yields : reference.Yields fun r => WellFormedId r.txId := by
  refine refine_yields fun s r taken => ?_
  split at taken
  · rename_i r' parsed
    cases taken
    exact (OutputRef.parse_eq_ok_iff.1 parsed).1
  · cases taken

theorem listItems_yields (yields : f.Yields P) {fuel : Nat} {first : Bool} {cs rest : List Char}
    {as : List α} (read : listItems f.read fuel first cs = .ok (as, rest)) : ∀ a ∈ as, P a := by
  induction fuel generalizing first cs as with
  | zero => cases read
  | succ fuel ih =>
    obtain ⟨item?, _, read⟩ := bind_eq_ok_iff.1 read
    cases item? with
    | none =>
      obtain ⟨_, _, same⟩ := bind_eq_ok_iff.1 read
      cases same
      exact List.forall_mem_nil P
    | some cs' =>
      obtain ⟨⟨a, _⟩, one, read⟩ := bind_eq_ok_iff.1 read
      obtain ⟨⟨others, _⟩, more, same⟩ := bind_eq_ok_iff.1 read
      cases same
      exact List.forall_mem_cons.2 ⟨yields _ _ _ one, ih more⟩

theorem Yields.list (yields : f.Yields P) : (list f).Yields fun as => ∀ a ∈ as, P a := by
  intro cs as rest read
  simp only [Form.list] at read
  split at read
  · cases read
  · split at read
    · exact listItems_yields yields read
    · cases read

end Form

namespace Members

variable {α β : Type} {m : Members α} {n : Members β} {P : α → Prop} {Q : β → Prop}

/-- Whatever is read of members, `P` holds of the value that they make; while they are read, `D` holds
of the draft. -/
structure Yields (m : Members α) (D : m.Draft → Prop) (P : α → Prop) : Prop where
  blank : D m.blank
  member : ∀ name read draft cs next rest, m.named? name = some read → D draft →
    read draft cs = .ok (next, rest) → D next
  finish : ∀ draft a, D draft → m.finish draft = .ok a → P a
  items : ∀ tooShort index cs a rest, m.readItems tooShort index cs = .ok (a, rest) → P a

/-- Without a default, a member comes from its form. -/
theorem one_yields {f : Form α} (yields : f.Yields P) (name : String) :
    (one name f).Yields (fun draft : Option α => ∀ a ∈ draft, P a) P where
  blank := nofun
  member s read draft cs next rest named holds taken := by
    simp only [one] at named
    split at named
    · cases named
      cases draft with
      | some _ => cases taken
      | none =>
        obtain ⟨_, _, taken⟩ := bind_eq_ok_iff.1 taken
        obtain ⟨⟨a, _⟩, inner, same⟩ := bind_eq_ok_iff.1 taken
        cases same
        rintro _ ⟨⟩
        exact yields _ _ _ inner
    · cases named
  finish draft a holds finished := by
    cases draft with
    | none => cases finished
    | some a' =>
      cases finished
      exact holds a rfl
  items tooShort index cs a rest read := by
    obtain ⟨item?, _, read⟩ := bind_eq_ok_iff.1 read
    cases item? with
    | some cs' => exact yields _ _ _ read
    | none => cases read

theorem Yields.and {D : m.Draft → Prop} {E : n.Draft → Prop} (yields : m.Yields D P)
    (yields' : n.Yields E Q) :
    (m.and n).Yields (fun draft : m.Draft × n.Draft => D draft.1 ∧ E draft.2)
      fun v => P v.1 ∧ Q v.2 where
  blank := ⟨yields.blank, yields'.blank⟩
  member name read draft cs next rest named holds taken := by
    simp only [Members.and] at named
    split at named
    · rename_i inner known
      cases named
      obtain ⟨⟨_, _⟩, first, same⟩ := bind_eq_ok_iff.1 taken
      cases same
      exact ⟨yields.member _ _ _ _ _ _ known holds.1 first, holds.2⟩
    · rename_i inner _ known
      cases named
      obtain ⟨⟨_, _⟩, second, same⟩ := bind_eq_ok_iff.1 taken
      cases same
      exact ⟨holds.1, yields'.member _ _ _ _ _ _ known holds.2 second⟩
    · cases named
  finish draft v holds finished := by
    obtain ⟨a, first, finished⟩ := bind_eq_ok_iff.1 finished
    obtain ⟨b, second, same⟩ := bind_eq_ok_iff.1 finished
    cases same
    exact ⟨yields.finish _ a holds.1 first, yields'.finish _ b holds.2 second⟩
  items tooShort index cs v rest read := by
    obtain ⟨⟨a, _⟩, first, read⟩ := bind_eq_ok_iff.1 read
    obtain ⟨⟨b, _⟩, second, same⟩ := bind_eq_ok_iff.1 read
    cases same
    exact ⟨yields.items _ _ _ a _ first, yields'.items _ _ _ b _ second⟩

theorem Yields.objectMembers {D : m.Draft → Prop} (yields : m.Yields D P) {fuel : Nat} {first : Bool}
    {draft last : m.Draft} {cs rest : List Char} (holds : D draft)
    (read : Json.objectMembers false m.readMember fuel first draft cs = .ok (last, rest)) :
    D last := by
  induction fuel generalizing first draft cs with
  | zero => cases read
  | succ fuel ih =>
    obtain ⟨name?, _, read⟩ := bind_eq_ok_iff.1 read
    cases name? with
    | none =>
      obtain ⟨_, _, same⟩ := bind_eq_ok_iff.1 read
      cases same
      exact holds
    | some cs' =>
      obtain ⟨⟨name, _⟩, _, read⟩ := bind_eq_ok_iff.1 read
      obtain ⟨⟨next, _⟩, taken, read⟩ := bind_eq_ok_iff.1 read
      refine ih ?_ read
      simp only [readMember] at taken
      split at taken
      · rename_i inner known
        exact yields.member _ _ _ _ _ _ known holds taken
      · obtain ⟨_, _, same⟩ := bind_eq_ok_iff.1 taken
        cases same
        exact holds

theorem Yields.record {D : m.Draft → Prop} (yields : m.Yields D P) (name : String) :
    (m.record name).Yields P := by
  intro cs a rest read
  simp only [Members.record] at read
  split at read
  · cases read
  · split at read
    · obtain ⟨⟨draft, _⟩, members, read⟩ := bind_eq_ok_iff.1 read
      obtain ⟨_, finished, same⟩ := bind_eq_ok_iff.1 read
      cases same
      exact yields.finish draft a (yields.objectMembers yields.blank members) finished
    · split at read
      · obtain ⟨⟨_, _⟩, items, read⟩ := bind_eq_ok_iff.1 read
        obtain ⟨_, _, same⟩ := bind_eq_ok_iff.1 read
        cases same
        exact yields.items _ _ _ _ _ items
      · cases read

end Members

namespace Form

open Members

theorem rawTx_yields : rawTx.Yields RawTx.Formed := by
  have outputs := (list rawOutput).yields_of_forall fun _ => trivial
  have members := (one_yields txId_yields "id").and
    ((one_yields reference_yields.list "inputs").and (one_yields outputs "outputs"))
  exact (members.record "struct RawTx").imap fun _ all => ⟨all.1, all.2.1⟩

theorem rawBlock_yields : rawBlock.Yields RawBlock.Formed := by
  have height := word64.yields_of_forall fun _ => trivial
  have hash := string.yields_of_forall fun _ => trivial
  have members := (one_yields height "height").and ((one_yields hash "hash").and
    ((one_yields hash "previous_block_hash").and (one_yields rawTx_yields.list "txs")))
  exact (members.record "struct RawBlock").imap fun _ all => all.2.2.2

/-- From whatever text blocks are loaded, their ids can all be parts of references. -/
theorem formed_of_ofText {s : String} {blocks : List RawBlock}
    (loaded : rawBlocks.ofText s = .ok blocks) : ∀ b ∈ blocks, b.Formed :=
  rawBlock_yields.list.ofText loaded

end Form

end TokenLedger.Json
