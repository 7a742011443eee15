import TokenLedger.Chain.Derivation
import TokenLedger.Proofs.Classification

/-!
What deriving the transactions of a block comes to. A run over them on a store that holds a set is a
`Derivation`: a chain of records, each of which follows from its transaction on top of the set that
the ones before have left. All later facts are read off that, without a store.

The records are enough to go the same way again: what was passed over has left no trace
(`deriveTxs_derivation`).
-/

namespace TokenLedger

/-- What the outputs of a transaction are worth that carry no data. -/
def RawTx.issuable (raw : RawTx) : Nat :=
  Amount.total ((raw.outputs.filter fun o => o.data?.isNone).map RawOutput.value)

/-- The token value that a transaction of a block brings into being. -/
def Genesis.issuedBy (g : Genesis) (height : UInt64) (raw : RawTx) : Nat :=
  if g.IsIssue height raw then raw.issuable else 0

/-! ## The issue -/

theorem TxOutput.toRaw_issued (o : TxOutput) : o.issued.toRaw = o.toRaw := by
  unfold issued
  split
  · rfl
  · split <;> rfl

theorem TxOutput.index_issued (o : TxOutput) : o.issued.index = o.index := by
  unfold issued
  split
  · rfl
  · split <;> rfl

theorem TxOutput.paid_issued (o : TxOutput) : o.issued.Paid := by
  intro token
  unfold issued carriesData at token ⊢
  split at token
  · cases token
  · split at token
    · cases token
    · rename_i noData worth
      rw [if_neg noData, if_neg worth]
      refine ⟨Option.not_isSome_iff_eq_none.1 noData, rfl, Nat.pos_of_ne_zero fun zero => worth ?_⟩
      exact UInt64.toNat_inj.1 zero

/-- The issue assigns what its outputs without data are worth. -/
theorem tokenTotal_map_issued (outputs : List TxOutput) :
    tokenTotal (outputs.map TxOutput.issued)
      = Amount.total (((outputs.map TxOutput.toRaw).filter fun o => o.data?.isNone).map
          RawOutput.value) := by
  induction outputs with
  | nil => rfl
  | cons o rest ih =>
    obtain ⟨index, value, data?, tokenValue, role⟩ := o
    cases data? with
    | some data =>
      rw [List.map_cons, tokenTotal_cons_other (by simp [TxOutput.issued, TxOutput.carriesData]), ih]
      rfl
    | none =>
      by_cases worthless : value = 0
      · subst worthless
        rw [List.map_cons, tokenTotal_cons_other (by simp [TxOutput.issued, TxOutput.carriesData]),
          ih]
        exact (Nat.zero_add _).symm
      · have issued : (⟨index, value, none, tokenValue, role⟩ : TxOutput).issued
            = ⟨index, value, none, value, .token⟩ := by
          simp [TxOutput.issued, TxOutput.carriesData, worthless]
        rw [List.map_cons, issued, tokenTotal_cons_token rfl, ih]
        rfl

theorem Tx.spentRefs_ofRaw_issued (raw : RawTx) (height : UInt64) :
    (Tx.ofRaw raw height).issued.spentRefs = [] := by
  simp [spentRefs, issued, ofRaw]

theorem Tx.toRaw_issued (tx : Tx) : tx.issued.toRaw = tx.toRaw := by
  simp [toRaw, issued, TxOutput.toRaw_issued, Function.comp_def]

theorem Tx.followsFrom_issued (raw : RawTx) (height : UInt64) (u : UnspentSet) :
    (Tx.ofRaw raw height).issued.FollowsFrom raw height raw.issuable u := by
  have spent := spentRefs_ofRaw_issued raw height
  have unaltered := toRaw_ofRaw raw height
  refine ⟨?_, rfl, ?_, ?_, ?_, ?_, ?_⟩
  · rw [toRaw_issued, unaltered]
  · rw [spent]
    exact .nil
  · intro i member v value
    obtain ⟨r, _, rfl⟩ := List.mem_map.1 member
    cases value
  · simp [issued, TxOutput.index_issued, Function.comp_def]
  · intro o member
    obtain ⟨o, _, rfl⟩ := List.mem_map.1 member
    exact o.paid_issued
  · have outputs := congrArg RawTx.outputs unaltered
    rw [spent, List.map_nil, List.sum_nil, Nat.zero_add, issued, tokenTotal_map_issued,
      RawTx.issuable, ← outputs]
    rfl

theorem insertAll_eq_perform {σ : Type} [Store σ] (s : σ) (entries : List (OutputRef × Utxo)) :
    insertAll s entries = perform s (creations entries) := by
  induction entries generalizing s with
  | nil => rfl
  | cons e rest ih =>
    obtain ⟨r, entry⟩ := e
    simp only [insertAll, perform, creations_cons, applyEach]
    cases Store.insert s r entry with
    | mk answer next =>
      cases answer with
      | ok => exact ih next
      | error => rfl

/-! ## One transaction -/

/-- Whether a transaction of a block is about token, where it finds a store: it is the issue, or what
it spends is worth something. -/
def Genesis.AboutToken {σ : Type} [Store σ] (g : Genesis) (height : UInt64) (s : σ) (raw : RawTx) :
    Prop :=
  g.IsIssue height raw ∨ 0 < worth s raw.inputs

instance {σ : Type} [Store σ] (g : Genesis) (height : UInt64) (s : σ) (raw : RawTx) :
    Decidable (g.AboutToken height s raw) := inferInstanceAs (Decidable (_ ∨ _))

/-- A transaction that is about token is recorded with what follows from it, and one that is not is
passed over without a trace; it is refused only if it brings in more than a balance holds. -/
theorem deriveTx_cases {σ : Type} [Store σ] [LawfulStore σ] {s : σ} {u : UnspentSet}
    (holds : Holds s u) (bears : u.BearsValue) (g : Genesis) (height : UInt64) (raw : RawTx) :
    (g.AboutToken height s raw ∧ ∃ tx s', deriveTx g height raw s = (.ok (some tx), s')
        ∧ tx.FollowsFrom raw height (g.issuedBy height raw) u
        ∧ perform s (tx.changes height) = (.ok (), s'))
      ∨ (¬ g.AboutToken height s raw ∧ deriveTx g height raw s = (.ok none, s))
      ∨ (¬ FitsWord (worth s raw.inputs)
        ∧ (deriveTx g height raw s).1 = .error (.balanceOverflow raw.id)) := by
  by_cases issue : g.IsIssue height raw
  · obtain ⟨s', made, _⟩ :=
      perform_holds holds (creations ((Tx.ofRaw raw height).issued.entries height))
    refine .inl ⟨.inl issue, (Tx.ofRaw raw height).issued, s', ?_, ?_, ?_⟩
    · simp only [deriveTx, if_pos issue, insertAll_eq_perform, made]
    · rw [Genesis.issuedBy, if_pos issue]
      exact Tx.followsFrom_issued raw height u
    · rw [Tx.changes, Tx.spentRefs_ofRaw_issued]
      exact made
  · rw [Genesis.issuedBy, if_neg issue]
    rcases classify_cases holds bears raw height with
      ⟨value, kept, follows, made⟩ | ⟨nothing, passed, same⟩ | ⟨large, refused⟩
    · exact .inl ⟨.inr value, _, _, by simp only [deriveTx, if_neg issue, kept], follows, made⟩
    · refine .inr (.inl ⟨?_, ?_⟩)
      · rintro (isIssue | value)
        · exact issue isIssue
        · omega
      · simp only [deriveTx, if_neg issue, passed, same]
    · refine .inr (.inr ⟨large, ?_⟩)
      simp only [deriveTx, if_neg issue, refused]

/-- Only the issue is recorded as such. -/
theorem isIssue_of_deriveTx {σ : Type} [Store σ] {g : Genesis} {height : UInt64} {raw : RawTx}
    {tx : Tx} {s s' : σ} (derived : deriveTx g height raw s = (.ok (some tx), s'))
    (genesis : tx.kind = .genesis) : g.IsIssue height raw ∧ tx.id = raw.id := by
  unfold deriveTx at derived
  dsimp only at derived
  split at derived
  · rename_i issue
    split at derived
    · cases derived
      exact ⟨issue, rfl⟩
    · cases derived
  · have other : (Tx.ofRaw raw height).kind ≠ .genesis := nofun
    split at derived
    · cases derived
      exact absurd genesis (classify_ne_genesis height other s)
    · cases derived
    · cases derived

/-! ## All transactions of a block -/

section

variable {σ : Type} [Store σ] {g : Genesis} {height : UInt64} {s s' : σ} {txs : List Tx}

theorem deriveTxs_cons_eq_ok_iff {raw : RawTx} {raws : List RawTx} :
    deriveTxs g height (raw :: raws) s = (.ok txs, s')
      ↔ ∃ tx? next rest, deriveTx g height raw s = (.ok tx?, next)
        ∧ deriveTxs g height raws next = (.ok rest, s') ∧ txs = tx?.toList ++ rest := by
  constructor
  · intro derived
    unfold deriveTxs at derived
    split at derived
    · cases derived
    · rename_i tx? next first
      split at derived
      · cases derived
      · rename_i rest last later
        cases derived
        exact ⟨tx?, next, rest, first, later, rfl⟩
  · rintro ⟨tx?, next, rest, first, later, rfl⟩
    simp only [deriveTxs, first, later]

theorem deriveTxs_append_eq_ok_iff {raws later : List RawTx} :
    deriveTxs g height (raws ++ later) s = (.ok txs, s')
      ↔ ∃ first next rest, deriveTxs g height raws s = (.ok first, next)
        ∧ deriveTxs g height later next = (.ok rest, s') ∧ txs = first ++ rest := by
  induction raws generalizing s txs with
  | nil =>
    constructor
    · intro derived
      exact ⟨[], s, txs, rfl, derived, rfl⟩
    · rintro ⟨_, _, rest, ⟨⟩, derived, rfl⟩
      exact derived
  | cons raw raws ih =>
    rw [List.cons_append, deriveTxs_cons_eq_ok_iff]
    constructor
    · rintro ⟨tx?, next, _, head, others, rfl⟩
      obtain ⟨first, next', rest, front, back, rfl⟩ := ih.1 others
      refine ⟨tx?.toList ++ first, next', rest, ?_, back, (List.append_assoc ..).symm⟩
      exact deriveTxs_cons_eq_ok_iff.2 ⟨tx?, next, first, head, front, rfl⟩
    · rintro ⟨_, next', rest, front, back, rfl⟩
      obtain ⟨tx?, next, first, head, others, rfl⟩ := deriveTxs_cons_eq_ok_iff.1 front
      exact ⟨tx?, next, first ++ rest, head, ih.2 ⟨first, next', rest, others, back, rfl⟩,
        List.append_assoc ..⟩

end

/-- A run over transactions at a height, from a set to a set, and the records that it makes. -/
inductive Derivation (g : Genesis) (height : UInt64) :
    UnspentSet → List RawTx → List Tx → UnspentSet → Prop
  | done (u : UnspentSet) : Derivation g height u [] [] u
  | kept {u u' : UnspentSet} {raw : RawTx} {tx : Tx} {raws : List RawTx} {txs : List Tx}
      (follows : tx.FollowsFrom raw height (g.issuedBy height raw) u)
      (later : Derivation g height ((tx.changes height).foldl UnspentSet.apply u) raws txs u') :
      Derivation g height u (raw :: raws) (tx :: txs) u'
  | passedOver {u u' : UnspentSet} {raw : RawTx} {raws : List RawTx} {txs : List Tx}
      (later : Derivation g height u raws txs u') : Derivation g height u (raw :: raws) txs u'

/-- The entries of a record that follows from its transaction bear value, and it makes no others. -/
theorem UnspentSet.BearsValue.foldl_changes {u : UnspentSet} (bears : u.BearsValue) {tx : Tx}
    (paid : ∀ o ∈ tx.outputs, o.Paid) (height : UInt64) :
    BearsValue ((tx.changes height).foldl apply u) := by
  intro r entry found
  rcases Tx.mem_entries_of_find? found with ⟨before, _⟩ | made
  · exact bears r entry before
  · rw [Tx.entries_eq] at made
    obtain ⟨i, o, listed, token, same⟩ := exists_of_mem_entriesFrom made
    cases same
    obtain ⟨_, whole, worth⟩ := paid o (List.mem_of_getElem? listed) token
    rw [whole]
    exact worth

/-- Where all transactions are derived, the first is recorded with what follows from it or passed over
without a trace, and the others are derived after it. -/
theorem deriveTxs_cons_ok {σ : Type} [Store σ] [LawfulStore σ] {g : Genesis} {height : UInt64}
    {raw : RawTx} {raws : List RawTx} {txs : List Tx} {s last : σ} {u : UnspentSet}
    (holds : Holds s u) (bears : u.BearsValue)
    (derived : deriveTxs g height (raw :: raws) s = (.ok txs, last)) :
    (∃ tx rest next, txs = tx :: rest ∧ g.AboutToken height s raw
        ∧ deriveTx g height raw s = (.ok (some tx), next)
        ∧ tx.FollowsFrom raw height (g.issuedBy height raw) u
        ∧ perform s (tx.changes height) = (.ok (), next)
        ∧ deriveTxs g height raws next = (.ok rest, last))
      ∨ (¬ g.AboutToken height s raw ∧ deriveTx g height raw s = (.ok none, s)
        ∧ deriveTxs g height raws s = (.ok txs, last)) := by
  obtain ⟨tx?, next, rest, first, later, rfl⟩ := deriveTxs_cons_eq_ok_iff.1 derived
  rcases deriveTx_cases holds bears g height raw with
    ⟨about, tx, after, kept, follows, made⟩ | ⟨other, passed⟩ | ⟨_, refused⟩
  · rw [first] at kept
    cases kept
    exact .inl ⟨tx, rest, next, rfl, about, first, follows, made, later⟩
  · rw [first] at passed
    cases passed
    exact .inr ⟨other, first, later⟩
  · rw [first] at refused
    cases refused

/-- A record of the issue has the id of the issue, and the height is the first one. -/
theorem issue_of_mem_deriveTxs {σ : Type} [Store σ] {g : Genesis} {height : UInt64}
    {raws : List RawTx} {txs : List Tx} {s s' : σ}
    (derived : deriveTxs g height raws s = (.ok txs, s')) {tx : Tx} (member : tx ∈ txs)
    (genesis : tx.kind = .genesis) : height = g.height ∧ tx.id = g.txId := by
  induction raws generalizing s txs with
  | nil =>
    cases derived
    cases member
  | cons raw raws ih =>
    obtain ⟨tx?, next, rest, first, later, rfl⟩ := deriveTxs_cons_eq_ok_iff.1 derived
    rcases List.mem_append.1 member with own | member
    · rw [Option.mem_toList] at own
      cases own
      obtain ⟨⟨first, issue⟩, same⟩ := isIssue_of_deriveTx first genesis
      exact ⟨first, same.trans issue⟩
    · exact ih later member

/-- Deriving transactions is a derivation from the set that the store holds, and makes the changes
of the records in the store, one after the other. The records alone lead the same way. -/
theorem deriveTxs_derivation {σ : Type} [Store σ] [LawfulStore σ] {g : Genesis} {height : UInt64}
    {raws : List RawTx} {txs : List Tx} {s s' : σ} {u : UnspentSet} (holds : Holds s u)
    (bears : u.BearsValue) (derived : deriveTxs g height raws s = (.ok txs, s')) :
    ∃ u', Derivation g height u raws txs u' ∧ u'.BearsValue
      ∧ perform s (txs.flatMap fun tx => tx.changes height) = (.ok (), s')
      ∧ deriveTxs g height (txs.map Tx.toRaw) s = (.ok txs, s') := by
  -- The store and the set that it holds go from one transaction to the next together; a set that
  -- bears value is what makes passing over leave no trace.
  induction raws generalizing s u txs with
  | nil =>
    cases derived
    exact ⟨u, .done u, bears, rfl, rfl⟩
  | cons raw raws ih =>
    rcases deriveTxs_cons_ok holds bears derived with
      ⟨tx, rest, next, rfl, _, first, follows, made, later⟩ | ⟨_, _, later⟩
    · obtain ⟨u', derivation, bears', madeLater, again⟩ :=
        ih (holds_of_perform holds made) (bears.foldl_changes follows.paid height) later
      refine ⟨u', .kept follows derivation, bears', ?_, ?_⟩
      · rw [List.flatMap_cons, perform_append made]
        exact madeLater
      · rw [List.map_cons, follows.unaltered]
        simp only [deriveTxs, first, again]
        rfl
    · obtain ⟨u', derivation, bears', made, again⟩ := ih holds bears later
      exact ⟨u', .passedOver derivation, bears', made, again⟩

/-- On a store that holds a set, only balances that do not fit are refused. -/
theorem deriveTxs_refused {σ : Type} [Store σ] [LawfulStore σ] {g : Genesis} {height : UInt64}
    {raws : List RawTx} {s : σ} {u : UnspentSet} (holds : Holds s u) (bears : u.BearsValue)
    {e : Rejection} (refused : (deriveTxs g height raws s).1 = .error e) :
    ∃ txId, e = .balanceOverflow txId := by
  induction raws generalizing s u with
  | nil => cases refused
  | cons raw raws ih =>
    -- Where the first is derived, it is the later ones that are refused.
    have later {tx? : Option Tx} {next : σ} (first : deriveTx g height raw s = (.ok tx?, next)) :
        (deriveTxs g height raws next).1 = .error e := by
      simp only [deriveTxs, first] at refused
      cases derived : deriveTxs g height raws next with
      | mk answer last =>
        rw [derived] at refused
        cases answer with
        | error e' => exact refused
        | ok txs => cases refused
    rcases deriveTx_cases holds bears g height raw with
      ⟨_, tx, next, first, follows, made⟩ | ⟨_, passed⟩ | ⟨_, overflow⟩
    · exact ih (holds_of_perform holds made) (bears.foldl_changes follows.paid height) (later first)
    · exact ih holds bears (later passed)
    · cases first : deriveTx g height raw s with
      | mk answer next =>
        rw [first] at overflow
        cases overflow
        simp only [deriveTxs, first] at refused
        cases refused
        exact ⟨raw.id, rfl⟩

namespace Derivation

variable {g : Genesis} {height : UInt64} {u u' : UnspentSet} {raws : List RawTx} {txs : List Tx}

/-- The set that comes out is the first one with the changes of the records. -/
theorem foldl_changes (derivation : Derivation g height u raws txs u') :
    (txs.flatMap fun tx => tx.changes height).foldl UnspentSet.apply u = u' := by
  induction derivation with
  | done => rfl
  | kept follows later ih => rw [List.flatMap_cons, List.foldl_append, ih]
  | passedOver later ih => exact ih

/-- The records are of some of the transactions, in their order. -/
theorem sublist (derivation : Derivation g height u raws txs u') :
    (txs.map Tx.toRaw).Sublist raws := by
  induction derivation with
  | done => exact .slnil
  | kept follows later ih =>
    rw [List.map_cons, follows.unaltered]
    exact ih.cons_cons _
  | passedOver later ih => exact ih.cons _

/-- No two records are of one transaction. -/
theorem nodup_ids (derivation : Derivation g height u raws txs u')
    (distinct : (raws.map RawTx.id).Nodup) : (txs.map Tx.id).Nodup := by
  have ids := derivation.sublist.map RawTx.id
  rw [List.map_map] at ids
  exact ids.nodup distinct

/-- The records are of the height of the block. -/
theorem height_eq (derivation : Derivation g height u raws txs u') :
    ∀ tx ∈ txs, tx.height = height := by
  induction derivation with
  | done => exact nofun
  | kept follows later ih =>
    intro tx member
    rcases List.mem_cons.1 member with rfl | member
    · exact follows.height_eq
    · exact ih tx member
  | passedOver later ih => exact ih

/-- What is found afterwards was there before or is an entry of one of the records. -/
theorem mem_entries (derivation : Derivation g height u raws txs u') {r : OutputRef} {entry : Utxo}
    (found : u'.find? r = some entry) :
    u.find? r = some entry ∨ ∃ tx ∈ txs, (r, entry) ∈ tx.entries height := by
  induction derivation with
  | done => exact .inl found
  | @kept u u' raw tx raws txs follows later ih =>
    rcases ih found with before | ⟨other, member, made⟩
    · rcases Tx.mem_entries_of_find? before with ⟨first, _⟩ | made
      · exact .inl first
      · exact .inr ⟨tx, List.mem_cons_self, made⟩
    · exact .inr ⟨other, List.mem_cons_of_mem _ member, made⟩
  | passedOver later ih => exact ih found

/-- What is found afterwards was there before or is under a reference to one of the records. -/
theorem known (derivation : Derivation g height u raws txs u') {r : OutputRef} {entry : Utxo}
    (found : u'.find? r = some entry) : u.find? r = some entry ∨ ∃ tx ∈ txs, tx.id = r.txId := by
  rcases derivation.mem_entries found with before | ⟨tx, member, made⟩
  · exact .inl before
  · exact .inr ⟨tx, member, (Tx.txId_of_mem_entries made).symm⟩

end Derivation

end TokenLedger
