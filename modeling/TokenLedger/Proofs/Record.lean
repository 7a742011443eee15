import TokenLedger.Chain.Derivation
import TokenLedger.Proofs.Unspent

/-!
What a record does to a ledger: it ends the entries behind those of its inputs that have a token
value, and then makes one for each of its token outputs. `Tx.changes` reads that off the record
alone, so a ledger can be told from the blocks that led to it.
-/

namespace TokenLedger

/-- The references behind which a record found token. -/
def Tx.spentRefs (tx : Tx) : List OutputRef :=
  (tx.inputs.filter fun i => i.tokenValue?.isSome).map TxInput.ref

/-- The changes that a record makes at a height. -/
def Tx.changes (tx : Tx) (height : UInt64) : List Change :=
  endings tx.spentRefs ++ creations (tx.entries height)

/-- The changes that a derived block makes. -/
def Block.changes (b : Block) : List Change := b.txs.flatMap fun tx => tx.changes b.height

/-- The token value that outputs were assigned. -/
def tokenTotal : List TxOutput → Nat
  | [] => 0
  | o :: rest => if o.role = .token then o.tokenValue.toNat + tokenTotal rest else tokenTotal rest

/-- The entries that outputs make, the first of them at a position. -/
def entriesFrom (txId : String) (height : UInt64) :
    (position : Nat) → List TxOutput → List (OutputRef × Utxo)
  | _, [] => []
  | position, o :: rest =>
    if o.role = .token then
      (⟨txId, UInt32.ofNat position⟩, { value := o.tokenValue, height, role := .token })
        :: entriesFrom txId height (position + 1) rest
    else entriesFrom txId height (position + 1) rest

section EntriesFrom

variable {txId : String} {height : UInt64}

theorem entriesFrom_cons_token {o : TxOutput} (token : o.role = .token) (position : Nat)
    (rest : List TxOutput) :
    entriesFrom txId height position (o :: rest)
      = (⟨txId, UInt32.ofNat position⟩, { value := o.tokenValue, height, role := .token })
        :: entriesFrom txId height (position + 1) rest :=
  if_pos token

theorem entriesFrom_cons_other {o : TxOutput} (other : o.role ≠ .token) (position : Nat)
    (rest : List TxOutput) :
    entriesFrom txId height position (o :: rest) = entriesFrom txId height (position + 1) rest :=
  if_neg other

theorem tokenTotal_cons_token {o : TxOutput} (token : o.role = .token) (rest : List TxOutput) :
    tokenTotal (o :: rest) = o.tokenValue.toNat + tokenTotal rest := if_pos token

theorem tokenTotal_cons_other {o : TxOutput} (other : o.role ≠ .token) (rest : List TxOutput) :
    tokenTotal (o :: rest) = tokenTotal rest := if_neg other

/-- Every entry comes from a token output, whose place is its reference. -/
theorem exists_of_mem_entriesFrom {position : Nat} {outputs : List TxOutput}
    {e : OutputRef × Utxo} (member : e ∈ entriesFrom txId height position outputs) :
    ∃ i o, outputs[i]? = some o ∧ o.role = .token ∧
      e = (⟨txId, UInt32.ofNat (position + i)⟩,
        { value := o.tokenValue, height, role := .token }) := by
  induction outputs generalizing position with
  | nil => cases member
  | cons o rest ih =>
    by_cases token : o.role = .token
    · rw [entriesFrom_cons_token token] at member
      rcases List.mem_cons.1 member with rfl | member
      · exact ⟨0, o, rfl, token, rfl⟩
      · obtain ⟨i, o', found, token', rfl⟩ := ih member
        exact ⟨i + 1, o', found, token', by rw [Nat.add_right_comm, Nat.add_assoc]⟩
    · rw [entriesFrom_cons_other token] at member
      obtain ⟨i, o', found, token', rfl⟩ := ih member
      exact ⟨i + 1, o', found, token', by rw [Nat.add_right_comm, Nat.add_assoc]⟩

theorem mem_entriesFrom {position i : Nat} {outputs : List TxOutput} {o : TxOutput}
    (listed : outputs[i]? = some o) (token : o.role = .token) :
    (⟨txId, UInt32.ofNat (position + i)⟩, { value := o.tokenValue, height, role := .token })
      ∈ entriesFrom txId height position outputs := by
  induction outputs generalizing position i with
  | nil => simp at listed
  | cons head rest ih =>
    cases i with
    | zero =>
      obtain rfl : head = o := by simpa using listed
      rw [entriesFrom_cons_token token]
      exact List.mem_cons_self
    | succ i =>
      have later := @ih (position + 1) i (by simpa using listed)
      rw [Nat.add_right_comm, Nat.add_assoc] at later
      by_cases first : head.role = .token
      · rw [entriesFrom_cons_token first]
        exact List.mem_cons_of_mem _ later
      · rw [entriesFrom_cons_other first]
        exact later

/-- The entries bear the value that the outputs were assigned. -/
theorem total_entriesFrom (txId : String) (height : UInt64) (position : Nat)
    (outputs : List TxOutput) :
    Amount.total ((entriesFrom txId height position outputs).map fun e => e.2.value)
      = tokenTotal outputs := by
  induction outputs generalizing position with
  | nil => rfl
  | cons o rest ih =>
    by_cases token : o.role = .token
    · rw [entriesFrom_cons_token token, tokenTotal_cons_token token, List.map_cons,
        Amount.total_cons, ih]
    · rw [entriesFrom_cons_other token, tokenTotal_cons_other token, ih]

/-- No two entries are under one reference, unless there are so many outputs that their places
come round again. -/
theorem nodup_entriesFrom {position : Nat} {outputs : List TxOutput}
    (few : position + outputs.length ≤ UInt32.size) :
    ((entriesFrom txId height position outputs).map Prod.fst).Nodup := by
  induction outputs generalizing position with
  | nil => exact .nil
  | cons o rest ih =>
    rw [List.length_cons] at few
    have later := ih (show position + 1 + rest.length ≤ UInt32.size by omega)
    by_cases token : o.role = .token
    · rw [entriesFrom_cons_token token, List.map_cons]
      refine List.nodup_cons.2 ⟨fun again => ?_, later⟩
      obtain ⟨e, member, same⟩ := List.mem_map.1 again
      obtain ⟨i, o', found, _, rfl⟩ := exists_of_mem_entriesFrom member
      have inside : i < rest.length := (List.getElem?_eq_some_iff.1 found).1
      have places : (position + 1 + i) % UInt32.size = position % UInt32.size := by
        simpa using congrArg (fun r => r.index.toNat) same
      rw [Nat.mod_eq_of_lt (by omega), Nat.mod_eq_of_lt (by omega)] at places
      omega
    · rw [entriesFrom_cons_other token]
      exact later

end EntriesFrom

namespace Tx

/-- Picking the token outputs out of all of them with their places makes the entries one by one. -/
theorem filterMap_mapIdx_outputRef (tx : Tx) (height : UInt64) (position : Nat)
    (outputs : List TxOutput) :
    (outputs.mapIdx fun i o => (tx.outputRef (UInt32.ofNat (position + i)), o)).filterMap
        (fun e =>
          if e.2.role = .token then
            some (e.1, ({ value := e.2.tokenValue, height, role := .token } : Utxo))
          else none)
      = entriesFrom tx.id height position outputs := by
  induction outputs generalizing position with
  | nil => rfl
  | cons o rest ih =>
    have later := ih (position + 1)
    rw [List.mapIdx_cons]
    by_cases token : o.role = .token
    · rw [entriesFrom_cons_token token, ← later]
      simp only [List.filterMap_cons, token, if_true, Nat.add_zero, Nat.add_assoc,
        Nat.add_comm 1, outputRef]
    · rw [entriesFrom_cons_other token, ← later]
      simp only [List.filterMap_cons, token, if_false, Nat.add_assoc, Nat.add_comm 1]

theorem entries_eq (tx : Tx) (height : UInt64) :
    tx.entries height = entriesFrom tx.id height 0 tx.outputs := by
  have whole := filterMap_mapIdx_outputRef tx height 0 tx.outputs
  simp only [Nat.zero_add] at whole
  exact whole

/-- Every entry is under a reference of the record. -/
theorem txId_of_mem_entries {tx : Tx} {height : UInt64} {e : OutputRef × Utxo}
    (member : e ∈ tx.entries height) : e.1.txId = tx.id := by
  rw [entries_eq] at member
  obtain ⟨_, _, _, _, rfl⟩ := exists_of_mem_entriesFrom member
  rfl

/-- Away from the entries of a record, what is found after it is what it did not spend. -/
theorem find?_foldl_changes_of_notMem (u : UnspentSet) (tx : Tx) (height : UInt64) {r : OutputRef}
    (absent : r ∉ (tx.entries height).map Prod.fst) :
    SortedMap.find? ((tx.changes height).foldl UnspentSet.apply u) r
      = if r ∈ tx.spentRefs then none else u.find? r := by
  rw [← map_fst_creations] at absent
  rw [changes, List.foldl_append, UnspentSet.find?_foldl_apply_of_notMem absent,
    UnspentSet.find?_foldl_endings]

/-- Every entry of a record is found after it, as long as its places do not come round again. -/
theorem find?_foldl_changes_of_mem (u : UnspentSet) {tx : Tx} {height : UInt64}
    (few : tx.outputs.length ≤ UInt32.size) {e : OutputRef × Utxo}
    (member : e ∈ tx.entries height) :
    SortedMap.find? ((tx.changes height).foldl UnspentSet.apply u) e.1 = some e.2 := by
  have distinct : ((creations (tx.entries height)).map Prod.fst).Nodup := by
    rw [map_fst_creations, entries_eq]
    exact nodup_entriesFrom (by rw [Nat.zero_add]; exact few)
  have made : (e.1, some e.2) ∈ creations (tx.entries height) := List.mem_map_of_mem member
  rw [changes, List.foldl_append]
  exact UnspentSet.find?_foldl_apply_of_mem distinct made

/-- What is found after a record was there before and is not spent by it, or is one of its
entries. -/
theorem mem_entries_of_find? {u : UnspentSet} {tx : Tx} {height : UInt64} {r : OutputRef}
    {entry : Utxo}
    (found : SortedMap.find? ((tx.changes height).foldl UnspentSet.apply u) r = some entry) :
    (u.find? r = some entry ∧ r ∉ tx.spentRefs) ∨ (r, entry) ∈ tx.entries height := by
  rw [changes, List.foldl_append] at found
  rcases UnspentSet.mem_of_find?_foldl_creations found with before | made
  · rw [UnspentSet.find?_foldl_endings] at before
    split at before
    · cases before
    · rename_i unspent
      exact .inl ⟨before, unspent⟩
  · exact .inr made

end Tx

end TokenLedger
