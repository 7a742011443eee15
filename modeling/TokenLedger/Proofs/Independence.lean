import TokenLedger.Proofs.Derivation
import TokenLedger.Proofs.Store.Alike

/-!
Transactions that have nothing to do with each other. A transaction reads its inputs, and changes
nothing but its inputs and its own outputs (`deriveTx_changes`). So where neither of two spends what
the other spends or makes, each is derived alike before and after the other, and the set that both
leave is the same (`deriveTx_swap`). Two such neighbours in a block can change places
(`deriveTxs_swap`).
-/

namespace TokenLedger

/-- Neither of two transactions spends what the other spends or makes. -/
structure RawTx.Independent (t w : RawTx) : Prop where
  disjoint : ∀ r ∈ t.inputs, r ∉ w.inputs
  notMadeBySecond : ∀ r ∈ t.inputs, r.txId ≠ w.id
  notMadeByFirst : ∀ r ∈ w.inputs, r.txId ≠ t.id

/-- Whether a reference is to something that a transaction spends or makes. -/
def RawTx.Touches (raw : RawTx) (r : OutputRef) : Prop := r ∈ raw.inputs ∨ r.txId = raw.id

namespace RawTx.Independent

variable {t w : RawTx}

theorem symm (independent : t.Independent w) : w.Independent t where
  disjoint r second first := independent.disjoint r first second
  notMadeBySecond := independent.notMadeByFirst
  notMadeByFirst := independent.notMadeBySecond

theorem not_touches (independent : t.Independent w) (distinct : t.id ≠ w.id) {r : OutputRef}
    (touched : t.Touches r) : ¬ w.Touches r := by
  rcases touched with spent | made
  · rintro (again | other)
    · exact independent.disjoint r spent again
    · exact independent.notMadeBySecond r spent other
  · rintro (spent | other)
    · exact independent.notMadeByFirst r spent made
    · exact distinct (made.symm.trans other)

end RawTx.Independent

namespace UnspentSet

/-! ## Sets that find the same under some references -/

/-- Sets that find the same under some references. -/
def AgreeOn (within : OutputRef → Prop) (u v : UnspentSet) : Prop :=
  ∀ r, within r → u.find? r = v.find? r

theorem find?_foldl_apply_congr {u v : UnspentSet} {r : OutputRef}
    (same : u.find? r = v.find? r) (changes : List Change) :
    (changes.foldl apply u).find? r = (changes.foldl apply v).find? r := by
  induction changes generalizing u v with
  | nil => exact same
  | cons change rest ih =>
    refine ih ?_
    rw [find?_apply, find?_apply, same]

theorem alikeOn (within : OutputRef → Prop) : AlikeOn (AgreeOn within) within := by
  have changed {u v : UnspentSet} (agree : AgreeOn within u v) (change : Change) :
      AgreeOn within (apply u change) (apply v change) :=
    fun r inside => find?_foldl_apply_congr (agree r inside) [change]
  refine ⟨fun agree _ inside => congrArg Except.ok (agree _ inside), ?_, ?_⟩
  · intro u v agree r entry
    exact ⟨_, _, _, rfl, rfl, changed agree (r, some entry)⟩
  · intro u v agree r inside
    refine ⟨_, _, _, rfl, ?_, changed agree (r, none)⟩
    rw [agree r inside]
    rfl

/-- Lists of changes to different references can be made in either order. -/
theorem foldl_apply_comm (u : UnspentSet) {first second : List Change}
    (apart : ∀ r ∈ first.map Prod.fst, r ∉ second.map Prod.fst) :
    second.foldl apply (first.foldl apply u) = first.foldl apply (second.foldl apply u) := by
  refine SortedMap.ext_find? fun r => ?_
  by_cases member : r ∈ first.map Prod.fst
  · have untouched : r ∉ second.map Prod.fst := apart r member
    rw [find?_foldl_apply_of_notMem untouched]
    exact find?_foldl_apply_congr (find?_foldl_apply_of_notMem untouched).symm first
  · have untouched (v : UnspentSet) : (first.foldl apply v).find? r = v.find? r :=
      find?_foldl_apply_of_notMem member
    rw [untouched]
    exact find?_foldl_apply_congr (untouched u) second

end UnspentSet

/-! ## What is derived in a set -/

section

variable {g : Genesis} {height : UInt64} {raw t w : RawTx} {u u' : UnspentSet}

/-- A record changes only what its transaction spends or makes. -/
theorem Tx.FollowsFrom.touches {tx : Tx} {issue : Nat}
    (follows : tx.FollowsFrom raw height issue u) {r : OutputRef}
    (changed : r ∈ (tx.changes height).map Prod.fst) : raw.Touches r := by
  have unaltered := follows.unaltered
  rw [changes, List.map_append, map_fst_creations, List.mem_append] at changed
  rcases changed with spent | made
  · left
    rw [← unaltered]
    simp only [endings, List.map_map, List.mem_map, Function.comp_apply] at spent
    obtain ⟨_, listed, rfl⟩ := spent
    obtain ⟨i, kept, rfl⟩ := List.mem_map.1 listed
    exact List.mem_map_of_mem (List.mem_filter.1 kept).1
  · right
    obtain ⟨e, member, rfl⟩ := List.mem_map.1 made
    rw [← unaltered]
    exact txId_of_mem_entries member

/-- The changes that are made for a transaction, if it has a record. -/
def changesFor (height : UInt64) (tx? : Option Tx) : List Change :=
  tx?.toList.flatMap fun tx => tx.changes height

/-- A transaction that is derived in a set makes the changes of its record there, which are to nothing
but what it spends or makes. -/
theorem deriveTx_changes {tx? : Option Tx} (bears : u.BearsValue)
    (derived : deriveTx g height raw u = (.ok tx?, u')) :
    u' = (changesFor height tx?).foldl UnspentSet.apply u
      ∧ (∀ r ∈ (changesFor height tx?).map Prod.fst, raw.Touches r) ∧ u'.BearsValue
      ∧ ∀ tx ∈ tx?, tx.toRaw = raw := by
  have itself : Holds u u := holds_unspentSet_iff.2 rfl
  rcases deriveTx_cases itself bears g height raw with
    ⟨_, tx, after, kept, follows, made⟩ | ⟨_, passed⟩ | ⟨_, refused⟩
  · rw [derived] at kept
    cases kept
    have changed := holds_unspentSet_iff.1 (holds_of_perform itself made)
    have whole : changesFor height (some tx) = tx.changes height := List.append_nil _
    rw [whole, changed]
    refine ⟨rfl, fun r => follows.touches, bears.foldl_changes follows.paid height, ?_⟩
    rintro _ ⟨⟩
    exact follows.unaltered
  · rw [derived] at passed
    cases passed
    exact ⟨rfl, nofun, bears, nofun⟩
  · rw [derived] at refused
    cases refused

/-- Changes elsewhere make no difference to what is derived of a transaction. -/
theorem deriveTx_foldl_apply (u : UnspentSet) {changes : List Change}
    (elsewhere : ∀ r ∈ raw.inputs, r ∉ changes.map Prod.fst) :
    (deriveTx g height raw (changes.foldl UnspentSet.apply u)).1 = (deriveTx g height raw u).1 := by
  have agree : UnspentSet.AgreeOn (· ∈ raw.inputs) (changes.foldl UnspentSet.apply u) u :=
    fun r listed => UnspentSet.find?_foldl_apply_of_notMem (elsewhere r listed)
  obtain ⟨answer, _, _, changed, plain, _⟩ :=
    (UnspentSet.alikeOn _).deriveTx agree g height raw fun _ listed => listed
  rw [changed, plain]

/-- Independent transactions are derived in either order, with the same records and the same set at
the end. -/
theorem deriveTx_swap {x? y? : Option Tx} {next last : UnspentSet} (bears : u.BearsValue)
    (independent : t.Independent w) (distinct : t.id ≠ w.id)
    (first : deriveTx g height t u = (.ok x?, next))
    (second : deriveTx g height w next = (.ok y?, last)) :
    ∃ next', deriveTx g height w u = (.ok y?, next')
      ∧ deriveTx g height t next' = (.ok x?, last) := by
  obtain ⟨rfl, touched, bearsNext, -⟩ := deriveTx_changes bears first
  obtain ⟨rfl, touched', -, -⟩ := deriveTx_changes bearsNext second
  -- The second transaction does not see what the first one did.
  have unseen : ∀ r ∈ w.inputs, r ∉ (changesFor height x?).map Prod.fst := by
    intro r listed changed
    exact independent.not_touches distinct (touched r changed) (.inl listed)
  have early : (deriveTx g height w u).1 = .ok y? := by
    rw [← deriveTx_foldl_apply u unseen, second]
  obtain ⟨next', early⟩ : ∃ next', deriveTx g height w u = (.ok y?, next') :=
    ⟨_, Prod.ext early rfl⟩
  obtain ⟨rfl, -, bearsNext', -⟩ := deriveTx_changes bears early
  -- Nor does the first one see what the second one has done already.
  have unseen' : ∀ r ∈ t.inputs, r ∉ (changesFor height y?).map Prod.fst := by
    intro r listed changed
    exact independent.not_touches distinct (.inl listed) (touched' r changed)
  have late : (deriveTx g height t ((changesFor height y?).foldl UnspentSet.apply u)).1
      = .ok x? := by
    rw [deriveTx_foldl_apply u unseen', first]
  obtain ⟨last', late⟩ : ∃ last', deriveTx g height t
      ((changesFor height y?).foldl UnspentSet.apply u) = (.ok x?, last') :=
    ⟨_, Prod.ext late rfl⟩
  obtain ⟨rfl, -, -, -⟩ := deriveTx_changes bearsNext' late
  refine ⟨_, early, ?_⟩
  rw [late, ← UnspentSet.foldl_apply_comm]
  intro r changed changed'
  exact independent.not_touches distinct (touched r changed) (touched' r changed')

end

/-! ## In the middle of a block -/

/-- In a set, deriving leads to the set that comes out of it. -/
theorem derivation_of_deriveTxs {g : Genesis} {height : UInt64} {u u' : UnspentSet}
    {raws : List RawTx} {txs : List Tx} (bears : u.BearsValue)
    (derived : deriveTxs g height raws u = (.ok txs, u')) :
    Derivation g height u raws txs u' ∧ u'.BearsValue := by
  have itself : Holds u u := holds_unspentSet_iff.2 rfl
  obtain ⟨after, derivation, bears', made, _⟩ := deriveTxs_derivation itself bears derived
  have same := holds_unspentSet_iff.1 (holds_of_perform itself made)
  rw [derivation.foldl_changes] at same
  rw [same]
  exact ⟨derivation, bears'⟩

/-- Records of transactions, and records of the same ones with two neighbours the other way round: only
the records of these two have changed places, if both have one. -/
def Exchanged (before : List RawTx) (t w : RawTx) (later : List RawTx) (txs txs' : List Tx) : Prop :=
  ∃ (first : List Tx) (x? y? : Option Tx) (last : List Tx),
    txs = first ++ (x?.toList ++ (y?.toList ++ last))
      ∧ txs' = first ++ (y?.toList ++ (x?.toList ++ last))
      ∧ (first.map Tx.toRaw).Sublist before ∧ (∀ x ∈ x?, x.toRaw = t)
      ∧ (∀ y ∈ y?, y.toRaw = w) ∧ (last.map Tx.toRaw).Sublist later

/-- Independent neighbours can change places: everything is derived as before, up to the places of
their records. -/
theorem deriveTxs_swap {g : Genesis} {height : UInt64} {before later : List RawTx} {t w : RawTx}
    {u u' : UnspentSet} {txs : List Tx} (bears : u.BearsValue) (independent : t.Independent w)
    (distinct : t.id ≠ w.id)
    (derived : deriveTxs g height (before ++ t :: w :: later) u = (.ok txs, u')) :
    ∃ txs', Exchanged before t w later txs txs'
      ∧ deriveTxs g height (before ++ w :: t :: later) u = (.ok txs', u') := by
  obtain ⟨first, a, _, front, fromFirst, rfl⟩ := deriveTxs_append_eq_ok_iff.1 derived
  obtain ⟨x?, b, _, ofFirst, fromSecond, rfl⟩ := deriveTxs_cons_eq_ok_iff.1 fromFirst
  obtain ⟨y?, c, last, ofSecond, back, rfl⟩ := deriveTxs_cons_eq_ok_iff.1 fromSecond
  obtain ⟨ahead, bearsA⟩ := derivation_of_deriveTxs bears front
  obtain ⟨-, -, bearsB, recordOfFirst⟩ := deriveTx_changes bearsA ofFirst
  obtain ⟨-, -, bearsC, recordOfSecond⟩ := deriveTx_changes bearsB ofSecond
  obtain ⟨behind, -⟩ := derivation_of_deriveTxs bearsC back
  obtain ⟨b', ofSecond', ofFirst'⟩ := deriveTx_swap bearsA independent distinct ofFirst ofSecond
  refine ⟨first ++ (y?.toList ++ (x?.toList ++ last)), ?_, ?_⟩
  · exact ⟨first, x?, y?, last, rfl, rfl, ahead.sublist, recordOfFirst, recordOfSecond,
      behind.sublist⟩
  · refine deriveTxs_append_eq_ok_iff.2 ⟨first, a, _, front, ?_, rfl⟩
    refine deriveTxs_cons_eq_ok_iff.2 ⟨y?, b', _, ofSecond', ?_, rfl⟩
    exact deriveTxs_cons_eq_ok_iff.2 ⟨x?, c, last, ofFirst', back, rfl⟩

end TokenLedger
