import TokenLedger.Proofs.Chain.Run
import TokenLedger.Proofs.Derivation
import TokenLedger.Proofs.Wire.RoundTrip

/-!
How a chain in memory grows. It takes a block in exactly if the block goes on from the head and its
transactions are derived in the ledger itself (`applyRaw_eq_some_iff`). The ledger afterwards is the
one before with the changes of the block (`call_grows`); a block that is refused is never refused by
the store (`call_ne_store`). From that follows what holds of every chain after any calls whatever
(`run_sound`).
-/

namespace TokenLedger

theorem checkTxIds_eq_ok_iff {height : UInt64} {seen : List String} {raws : List RawTx} :
    checkTxIds height seen raws = .ok ()
      ↔ (∀ raw ∈ raws, WellFormedId raw.id) ∧ (raws.map RawTx.id).Nodup
        ∧ ∀ raw ∈ raws, raw.id ∉ seen := by
  induction raws generalizing seen with
  | nil => simp [checkTxIds]
  | cons raw rest ih =>
    by_cases formed : WellFormedId raw.id
    · by_cases known : raw.id ∈ seen
      · simp [checkTxIds, formed, known]
      · rw [checkTxIds, if_neg (not_not_intro formed), if_neg known, ih]
        simp only [List.mem_cons, List.map_cons, List.nodup_cons, List.mem_map, not_or]
        constructor
        · rintro ⟨allFormed, distinct, fresh⟩
          refine ⟨?_, ⟨?_, distinct⟩, ?_⟩
          · rintro other (rfl | member)
            · exact formed
            · exact allFormed other member
          · rintro ⟨other, member, same⟩
            exact (fresh other member).1 same
          · rintro other (rfl | member)
            · exact known
            · exact (fresh other member).2
        · rintro ⟨allFormed, ⟨apart, distinct⟩, fresh⟩
          refine ⟨fun other member => allFormed other (.inr member), distinct, ?_⟩
          intro other member
          exact ⟨fun same => apart ⟨other, member, same⟩, fresh other (.inr member)⟩
    · simp [checkTxIds, formed]

/-- A store that holds a set cannot be told from the set. -/
theorem Holds.alike {σ : Type} [Store σ] [LawfulStore σ] :
    Alike fun (s : σ) (u : UnspentSet) => Holds s u where
  find? holds r := holds r
  insert := by
    intro s u holds r entry
    obtain ⟨s', inserted, later⟩ := LawfulStore.insert_holds holds r entry
    exact ⟨_, s', _, inserted, rfl, later⟩
  remove := by
    intro s u holds r
    obtain ⟨s', removed, later⟩ := LawfulStore.remove_holds holds r
    exact ⟨_, s', _, removed, rfl, later⟩

/-- On top of a set, a block is derived as its transactions are in the set, and its changes lead where
these lead. -/
theorem deriveBlock_eq_ok_iff {g : Genesis} {raw : RawBlock} {b : Block} {u u' : UnspentSet} :
    (∃ changes : List Change, deriveBlock g raw u = (.ok (b, changes), u)
        ∧ changes.foldl UnspentSet.apply u = u')
      ↔ ∃ txs, deriveTxs g raw.height raw.txs u = (.ok txs, u')
        ∧ b = { height := raw.height, hash := raw.hash, previousHash := raw.previousHash, txs } := by
  have beneath := deriveBlock_store g raw u
  obtain ⟨answer, o, after, held, direct, holds⟩ :=
    Holds.alike.deriveTxs (Overlay.holds_fresh u) g raw.height raw.txs
  simp only [deriveBlock, held, direct] at beneath ⊢
  cases answer with
  | error e => simp
  | ok txs =>
    change o.base = u at beneath
    have through := Overlay.foldl_changes holds
    rw [beneath] at through
    constructor
    · rintro ⟨_, derived, rfl⟩
      cases derived
      exact ⟨txs, by rw [through], rfl⟩
    · rintro ⟨_, derived, rfl⟩
      cases derived
      exact ⟨o.changes, by simp only [beneath], through⟩

namespace Chain

/-- A block goes on from the head if it has the next height, names the head as the one before it,
and its ids are well-formed and different. -/
theorem checkContinuity_eq_ok_iff {σ : Type} {c : Chain σ} {raw : RawBlock} :
    c.checkContinuity raw = .ok ()
      ↔ c.nextHeight = .ok raw.height ∧ (∀ head, c.head? = some head → raw.previousHash = head.hash)
        ∧ (∀ tx ∈ raw.txs, WellFormedId tx.id) ∧ (raw.txs.map RawTx.id).Nodup := by
  have ids : (checkTxIds raw.height [] raw.txs).mapError Stop.refused = .ok ()
      ↔ (∀ tx ∈ raw.txs, WellFormedId tx.id) ∧ (raw.txs.map RawTx.id).Nodup := by
    have checked : checkTxIds raw.height [] raw.txs = .ok () ↔ _ := checkTxIds_eq_ok_iff
    simp only [List.not_mem_nil, not_false_eq_true, implies_true, and_true] at checked
    rw [← checked]
    cases checkTxIds raw.height [] raw.txs with
    | error e => exact ⟨nofun, nofun⟩
    | ok _ => exact ⟨fun _ => rfl, fun _ => rfl⟩
  unfold checkContinuity
  cases next : c.nextHeight with
  | error o => simp
  | ok expected =>
    by_cases heights : raw.height = expected
    · subst heights
      cases found : c.head? with
      | none => simp [ids]
      | some head =>
        by_cases linked : raw.previousHash = head.hash
        · simp [linked, ids]
        · simp [linked]
    · simp [heights, Ne.symm heights]

/-! ## One step -/

/-- A block is taken in if it is not below the first height, goes on from the head, and its
transactions are derived. -/
theorem applyRaw_eq_some_iff {c after : Chain UnspentSet} {raw : RawBlock} {b : Block} :
    c.applyRaw raw = (.ok (some b), after)
      ↔ ¬ raw.height < c.genesis.height ∧ c.checkContinuity raw = .ok ()
        ∧ ∃ txs u, deriveTxs c.genesis raw.height raw.txs c.store = (.ok txs, u)
          ∧ b = { height := raw.height, hash := raw.hash, previousHash := raw.previousHash, txs }
          ∧ after = { c with store := u, blocks := c.blocks ++ [b] } := by
  constructor
  · intro answered
    have called : c.call (.raw raw) = (.ok (some b), after) := answered
    rcases c.call_cases (.raw raw) with ⟨b', changes, stages, _, committed⟩ | ⟨_, noBlock⟩
    · rw [called, commit, UnspentSet.commitBlock_eq] at committed
      cases committed
      obtain ⟨txs, derived, same⟩ := deriveBlock_eq_ok_iff.1 ⟨changes, stages.derived, rfl⟩
      exact ⟨stages.notBelow, stages.goesOn, txs, _, derived, same, rfl⟩
    · rw [called] at noBlock
      exact absurd rfl (noBlock b)
  · rintro ⟨notBelow, goesOn, txs, u, derived, rfl, rfl⟩
    obtain ⟨changes, staged, rfl⟩ := deriveBlock_eq_ok_iff.2 ⟨txs, derived, rfl⟩
    have stages : c.Stages raw _ changes := ⟨notBelow, goesOn, staged⟩
    rw [stages.applyRaw, commit, UnspentSet.commitBlock_eq]

/-- A chain has grown by a block that was derived from a block of the underlying chain. -/
structure Grows (c : Chain UnspentSet) (raw : RawBlock) (b : Block) (after : Chain UnspentSet) :
    Prop where
  notBelow : ¬ raw.height < c.genesis.height
  goesOn : c.checkContinuity raw = .ok ()
  header : b.height = raw.height ∧ b.hash = raw.hash ∧ b.previousHash = raw.previousHash
  derivation : Derivation c.genesis b.height c.store raw.txs b.txs after.store
  /-- While the block was derived, just its changes were made, one call after the other. -/
  called : ∃ o, deriveTxs c.genesis raw.height raw.txs ({ base := c.store } : Overlay UnspentSet)
      = (.ok b.txs, o)
    ∧ perform ({ base := c.store } : Overlay UnspentSet) b.changes = (.ok (), o)
  /-- From elsewhere, the block would be taken in just the same. -/
  again : c.call (.peer b) = (.ok (some b), after)
  genesis_eq : after.genesis = c.genesis
  blocks_eq : after.blocks = c.blocks ++ [b]

/-- A block with some of the transactions goes on from the head as well. -/
theorem checkContinuity_sublist {σ : Type} {c : Chain σ} {raw : RawBlock} {txs : List RawTx}
    (goesOn : c.checkContinuity raw = .ok ()) (some : txs.Sublist raw.txs) :
    c.checkContinuity { raw with txs } = .ok () := by
  obtain ⟨next, linked, formed, distinct⟩ := checkContinuity_eq_ok_iff.1 goesOn
  refine checkContinuity_eq_ok_iff.2 ⟨next, linked, ?_, ?_⟩
  · intro tx member
    exact formed tx (some.subset member)
  · exact (some.map RawTx.id).nodup distinct

theorem Stages.call_peer {σ : Type} [Store σ] {c : Chain σ} {b : Block} {changes : List Change}
    (stages : c.Stages b.toRaw b changes) : c.call (.peer b) = c.commit b changes := by
  simp only [Chain.call, applyPeer, applyChecked, stages.stage_eq,
    refuseDivergence_eq_none_iff.2 rfl]

theorem Stages.grows {c : Chain UnspentSet} {raw : RawBlock} {b : Block} {changes : List Change}
    (bears : c.store.BearsValue) (stages : c.Stages raw b changes) :
    ∃ after, c.commit b changes = (.ok (some b), after) ∧ c.Grows raw b after
      ∧ after.store.BearsValue := by
  obtain ⟨notBelow, goesOn, derived⟩ := stages
  unfold deriveBlock at derived
  split at derived
  · cases derived
  · rename_i txs o run
    simp only [Prod.mk.injEq, Except.ok.injEq] at derived
    obtain ⟨⟨rfl, rfl⟩, base⟩ := derived
    have holds := Overlay.holds_fresh c.store
    obtain ⟨u', derivation, bears', called, again⟩ := deriveTxs_derivation holds bears run
    have made : o.changes.foldl UnspentSet.apply c.store = u' := by
      rw [← base, ← derivation.foldl_changes]
      exact Overlay.foldl_changes (holds_of_perform holds called)
    let b : Block :=
      { height := raw.height, hash := raw.hash, previousHash := raw.previousHash, txs }
    have committed : c.commit b o.changes
        = (.ok (some b), { c with store := u', blocks := c.blocks ++ [b] }) := by
      rw [commit, UnspentSet.commitBlock_eq, made]
    have stagesAgain : c.Stages b.toRaw b o.changes := by
      refine ⟨notBelow, checkContinuity_sublist goesOn derivation.sublist, ?_⟩
      simp only [deriveBlock, Block.toRaw, b, again, base]
    exact ⟨_, committed, ⟨notBelow, goesOn, ⟨rfl, rfl, rfl⟩, derivation, ⟨o, run, called⟩,
      stagesAgain.call_peer.trans committed, rfl, rfl⟩, bears'⟩

/-- A call lets the chain grow by the block that it answers, or it answers none and leaves the chain
as it was. -/
theorem call_grows {c : Chain UnspentSet} (bears : c.store.BearsValue) (call : Call) :
    (∃ b after, c.call call = (.ok (some b), after) ∧ call.Admits b ∧ c.Grows call.source b after
        ∧ after.store.BearsValue)
      ∨ ((c.call call).2 = c ∧ ∀ b, (c.call call).1 ≠ .ok (some b)) := by
  rcases c.call_cases call with ⟨b, changes, stages, admits, committed⟩ | unchanged
  · obtain ⟨after, taken, grows, bears'⟩ := stages.grows bears
    exact .inl ⟨b, after, committed.trans taken, admits, grows, bears'⟩
  · exact .inr unchanged

/-! ## Refusals -/

section Refusals

/-- Why a block does not go on from the head. -/
inductive Discontinuity (raw : RawBlock) : Rejection → Prop
  | height (expected : UInt64) : Discontinuity raw (.heightMismatch expected raw.height)
  | previousHash (expected : String) :
      Discontinuity raw (.previousHashMismatch raw.height expected raw.previousHash)
  | malformedTxId (txId : String) : Discontinuity raw (.malformedTxId raw.height txId)
  | duplicateTx (txId : String) : Discontinuity raw (.duplicateTx raw.height txId)

theorem checkTxIds_error {raw : RawBlock} {seen : List String} {raws : List RawTx} {r : Rejection}
    (refused : checkTxIds raw.height seen raws = .error r) : Discontinuity raw r := by
  induction raws generalizing seen with
  | nil => cases refused
  | cons first rest ih =>
    unfold checkTxIds at refused
    split at refused
    · cases refused
      exact .malformedTxId first.id
    · split at refused
      · cases refused
        exact .duplicateTx first.id
      · exact ih refused

/-- The check stops where there is no next height, and otherwise it says why the block does not go
on. -/
theorem checkContinuity_error {σ : Type} {c : Chain σ} {raw : RawBlock} {e : Stop Rejection}
    (stopped : c.checkContinuity raw = .error e) :
    (∃ o, c.nextHeight = .error o ∧ e = .overflow o) ∨ ∃ r, Discontinuity raw r ∧ e = .refused r := by
  have ids : (checkTxIds raw.height [] raw.txs).mapError Stop.refused = .error e →
      ∃ r, Discontinuity raw r ∧ e = .refused r := by
    intro stopped
    cases checked : checkTxIds raw.height [] raw.txs with
    | ok _ =>
      rw [checked] at stopped
      cases stopped
    | error r =>
      rw [checked] at stopped
      cases stopped
      exact ⟨r, checkTxIds_error checked, rfl⟩
  unfold checkContinuity at stopped
  split at stopped
  · rename_i o none
    cases stopped
    exact .inl ⟨o, none, rfl⟩
  · rename_i expected _
    refine .inr ?_
    split at stopped
    · cases stopped
      exact ⟨_, .height expected, rfl⟩
    · split at stopped
      · rename_i head _
        split at stopped
        · cases stopped
          exact ⟨_, .previousHash head.hash, rfl⟩
        · exact ids stopped
      · exact ids stopped

theorem discontinuity_of_refused {σ : Type} {c : Chain σ} {raw : RawBlock} {r : Rejection}
    (refused : c.checkContinuity raw = .error (.refused r)) : Discontinuity raw r := by
  rcases checkContinuity_error refused with ⟨o, _, same⟩ | ⟨r, cause, same⟩
  · cases same
  · cases same
    exact cause

theorem nextHeight_of_overflow {σ : Type} {c : Chain σ} {raw : RawBlock} {o : Overflow}
    (stopped : c.checkContinuity raw = .error (.overflow o)) : c.nextHeight = .error o := by
  rcases checkContinuity_error stopped with ⟨o, next, same⟩ | ⟨r, _, same⟩
  · cases same
    exact next
  · cases same

variable {c : Chain UnspentSet}

theorem stage_ne_store (bears : c.store.BearsValue) {raw : RawBlock} {e : StoreError} :
    (c.stage raw).1 ≠ .error (.refused (.store e)) := by
  have holds := Overlay.holds_fresh c.store
  unfold stage
  split
  · simp
  · split
    · rename_i stopped goesOn
      intro refused
      cases refused
      cases discontinuity_of_refused goesOn
    · cases run : deriveTxs c.genesis raw.height raw.txs
        ({ base := c.store } : Overlay UnspentSet) with
      | mk answer o =>
        cases answer with
        | ok txs =>
          simp [deriveBlock, run]
        | error r =>
          obtain ⟨txId, rfl⟩ := deriveTxs_refused holds bears (congrArg Prod.fst run)
          simp [deriveBlock, run]

theorem applyChecked_ne_store (bears : c.store.BearsValue) {raw : RawBlock}
    {check : Block → Option Rejection} {e : StoreError} (other : ∀ b, check b ≠ some (.store e)) :
    (c.applyChecked raw check).1 ≠ .error (.refused (.store e)) := by
  have notStaged : (c.stage raw).1 ≠ .error (.refused (.store e)) := stage_ne_store bears
  unfold applyChecked
  split
  · rename_i staged
    rw [staged] at notStaged
    intro refused
    cases refused
    exact notStaged rfl
  · simp
  · rename_i b changes after staged
    split
    · rename_i r checked
      intro refused
      cases refused
      exact other b checked
    · rw [commit, UnspentSet.commitBlock_eq]
      simp

/-- Nothing is refused by a store in memory. -/
theorem call_ne_store (bears : c.store.BearsValue) (call : Call) (e : StoreError) :
    (c.call call).1 ≠ .error (.refused (.store e)) := by
  have divergent (claimed b : Block) : refuseDivergence claimed b ≠ some (.store e) := by
    rw [refuseDivergence, ne_eq, Option.map_eq_some_iff]
    simp
  cases call with
  | raw block => exact applyChecked_ne_store bears (by simp)
  | peer claimed => exact applyChecked_ne_store bears (divergent claimed)
  | peerWithRaw claimed block =>
    simp only [Chain.call, applyPeerWithRaw]
    split
    · simp
    · exact applyChecked_ne_store bears (divergent claimed)

end Refusals

/-! ## Any calls -/

/-- What holds of every chain that began before any block. -/
structure Sound (c : Chain UnspentSet) : Prop where
  bears : c.store.BearsValue
  heights : ∀ i b, c.blocks[i]? = some b → b.height.toNat = c.genesis.height.toNat + i
  distinct : ∀ b ∈ c.blocks, (b.txs.map Tx.id).Nodup
  known : ∀ r entry, c.store.find? r = some entry → ∃ b ∈ c.blocks, ∃ tx ∈ b.txs, tx.id = r.txId

theorem start_sound (g : Genesis) : (start g).Sound where
  bears := nofun
  heights := nofun
  distinct := nofun
  known := nofun

/-- The next height is as far from the first one as there are blocks. -/
theorem Sound.nextHeight {c : Chain UnspentSet} (sound : c.Sound) {height : UInt64}
    (next : c.nextHeight = .ok height) :
    height.toNat = c.genesis.height.toNat + c.blocks.length := by
  unfold Chain.nextHeight head? at next
  cases last : c.blocks.getLast? with
  | none =>
    rw [last] at next
    cases next
    rw [List.getLast?_eq_none_iff.1 last]
    rfl
  | some head =>
    rw [last] at next
    have above : Amount.add head.height 1 = .ok height := next
    unfold Amount.add at above
    split at above
    · rename_i sum added
      cases above
      have place := last
      rw [List.getLast?_eq_getElem?] at place
      have inside := (List.getElem?_eq_some_iff.1 place).1
      have heights := sound.heights _ _ place
      have sum := Amount.add?_eq_some_iff.1 added
      have one : (1 : UInt64).toNat = 1 := rfl
      omega
    · cases above

/-- The next height is the first one just before the first block. -/
theorem Sound.first_iff {c : Chain UnspentSet} (sound : c.Sound) {height : UInt64}
    (next : c.nextHeight = .ok height) : height = c.genesis.height ↔ c.blocks = [] := by
  have place := sound.nextHeight next
  rw [← UInt64.toNat_inj, ← List.length_eq_zero_iff]
  omega

theorem Sound.grows {c after : Chain UnspentSet} {raw : RawBlock} {b : Block} (sound : c.Sound)
    (grows : c.Grows raw b after) (bears : after.store.BearsValue) : after.Sound := by
  obtain ⟨next, _, _, ids⟩ := checkContinuity_eq_ok_iff.1 grows.goesOn
  refine ⟨bears, ?_, ?_, ?_⟩
  · intro i other found
    rw [grows.blocks_eq] at found
    rw [grows.genesis_eq]
    by_cases before : i < c.blocks.length
    · rw [List.getElem?_append_left before] at found
      exact sound.heights i other found
    · rw [List.getElem?_append_right (Nat.le_of_not_lt before)] at found
      obtain ⟨only, same⟩ := List.getElem?_eq_some_iff.1 found
      rw [List.length_singleton] at only
      have last : i = c.blocks.length := by omega
      subst last
      simp only [Nat.sub_self, List.getElem_cons_zero] at same
      rw [← same, grows.header.1]
      exact sound.nextHeight next
  · intro other member
    rw [grows.blocks_eq] at member
    rcases List.mem_append.1 member with before | last
    · exact sound.distinct other before
    · obtain rfl := List.mem_singleton.1 last
      exact grows.derivation.nodup_ids ids
  · intro r entry found
    rw [grows.blocks_eq]
    rcases grows.derivation.known found with before | ⟨tx, member, same⟩
    · obtain ⟨other, member, tx, listed, same⟩ := sound.known r entry before
      exact ⟨other, List.mem_append_left _ member, tx, listed, same⟩
    · exact ⟨b, List.mem_append_right _ List.mem_cons_self, tx, member, same⟩

theorem Sound.call {c : Chain UnspentSet} (sound : c.Sound) (call : Call) :
    (c.call call).2.Sound := by
  rcases call_grows sound.bears call with ⟨b, after, answered, _, grows, bears⟩ | ⟨same, _⟩
  · rw [answered]
    exact sound.grows grows bears
  · rw [same]
    exact sound

/-- A block that is taken in has grown the chain. -/
theorem Sound.grows_of_applyRaw {c after : Chain UnspentSet} {raw : RawBlock} {b : Block}
    (sound : c.Sound) (taken : c.applyRaw raw = (.ok (some b), after)) : c.Grows raw b after := by
  have called : c.call (.raw raw) = (.ok (some b), after) := taken
  rcases call_grows sound.bears (.raw raw) with ⟨b', after', answered, _, grows, _⟩ | ⟨_, noBlock⟩
  · rw [called] at answered
    cases answered
    exact grows
  · rw [called] at noBlock
    exact absurd rfl (noBlock b)

theorem answers_ne_store {c : Chain UnspentSet} (sound : c.Sound) (calls : List Call)
    (e : StoreError) : .error (.refused (.store e)) ∉ c.answers calls := by
  induction calls generalizing c with
  | nil => exact List.not_mem_nil
  | cons call rest ih =>
    rw [answers, List.mem_cons]
    exact not_or_intro (call_ne_store sound.bears call e).symm (ih (sound.call call))

/-- What a chain in memory that grows keeps holds of it after any calls. -/
theorem run_of_grows {P : Chain UnspentSet → Prop}
    (step : ∀ {c after raw b}, c.Sound → P c → c.Grows raw b after → P after) {g : Genesis}
    (first : P (start g)) (calls : List Call) :
    ((start g).run calls).Sound ∧ P ((start g).run calls) := by
  refine run_induction (P := fun c => c.Sound ∧ P c) ?_ ⟨start_sound g, first⟩ calls
  rintro c call ⟨sound, holds⟩
  rcases call_grows sound.bears call with ⟨b, after, answered, _, grows, bears⟩ | ⟨same, _⟩
  · rw [answered]
    exact ⟨sound.grows grows bears, step sound holds grows⟩
  · rw [same]
    exact ⟨sound, holds⟩

theorem run_sound (g : Genesis) (calls : List Call) : ((start g).run calls).Sound :=
  (run_of_grows (P := fun _ => True) (fun _ _ _ => trivial) trivial calls).1

theorem genesis_run (g : Genesis) (calls : List Call) :
    ((start g).run calls).genesis = g :=
  (run_of_grows (P := fun c => c.genesis = g)
    (fun _ same grows => grows.genesis_eq.trans same) rfl calls).2

/-- What holds of each block that a chain grows by holds of all its blocks after any calls. -/
theorem forall_blocks_run {P : Genesis → Block → Prop}
    (step : ∀ {c after : Chain UnspentSet} {raw b}, c.Grows raw b after → P c.genesis b)
    (g : Genesis) (calls : List Call) :
    ∀ b ∈ ((start g).run calls).blocks, P ((start g).run calls).genesis b := by
  refine (run_of_grows (P := fun c => ∀ b ∈ c.blocks, P c.genesis b) ?_ nofun calls).2
  intro c after raw b _ before grows
  rw [grows.blocks_eq, grows.genesis_eq, List.forall_mem_append, List.forall_mem_singleton]
  exact ⟨before, step grows⟩

/-- Every record is of a transaction of the block. -/
theorem Grows.toRaw_mem {c after : Chain UnspentSet} {raw : RawBlock} {b : Block}
    (grows : c.Grows raw b after) {tx : Tx} (recorded : tx ∈ b.txs) : tx.toRaw ∈ raw.txs :=
  grows.derivation.sublist.subset (List.mem_map_of_mem recorded)

/-- The ids of records are well-formed. -/
theorem idsFormed_run (g : Genesis) (calls : List Call) :
    ∀ b ∈ ((start g).run calls).blocks, ∀ tx ∈ b.txs, WellFormedId tx.id := by
  refine forall_blocks_run (P := fun _ b => ∀ tx ∈ b.txs, WellFormedId tx.id) ?_ g calls
  intro c after raw b grows tx recorded
  obtain ⟨_, _, ids, _⟩ := checkContinuity_eq_ok_iff.1 grows.goesOn
  exact ids tx.toRaw (grows.toRaw_mem recorded)

/-- The records of a chain name well-formed ids, if the blocks do that it was given. -/
theorem refsFormed_run {c : Chain UnspentSet} (sound : c.Sound)
    (formed : ∀ b ∈ c.blocks, ∀ tx ∈ b.txs, Wire.Codec.RefsFormed tx) {calls : List Call}
    (given : ∀ call ∈ calls, ∀ raw ∈ call.source.txs, ∀ r ∈ raw.inputs, WellFormedId r.txId) :
    ∀ b ∈ (c.run calls).blocks, ∀ tx ∈ b.txs, Wire.Codec.RefsFormed tx := by
  induction calls generalizing c with
  | nil => exact formed
  | cons call rest ih =>
    have givenLater := fun later member => given later (List.mem_cons_of_mem _ member)
    rcases call_grows sound.bears call with ⟨b, after, answered, _, grows, bears⟩ | ⟨same, _⟩
    · rw [run, answered]
      refine ih (sound.grows grows bears) ?_ givenLater
      rw [grows.blocks_eq, List.forall_mem_append, List.forall_mem_singleton]
      refine ⟨formed, fun tx recorded i listed => ?_⟩
      exact given call List.mem_cons_self tx.toRaw (grows.toRaw_mem recorded) i.ref
        (List.mem_map_of_mem listed)
    · rw [run, same]
      exact ih sound formed givenLater

/-- The blocks of a chain lead to it: offered from elsewhere to a chain that is empty, each of them
is taken in, and the chain comes out. -/
theorem run_blocks (g : Genesis) (calls : List Call) :
    let c := (start g).run calls
    (start g).run (c.blocks.map .peer) = c
      ∧ (start g).answers (c.blocks.map .peer) = c.blocks.map fun b => .ok (some b) := by
  refine (run_of_grows (P := fun c => (start g).run (c.blocks.map .peer) = c
      ∧ (start g).answers (c.blocks.map .peer) = c.blocks.map fun b => .ok (some b))
    ?_ ⟨rfl, rfl⟩ calls).2
  rintro c after raw b _ ⟨same, answered⟩ grows
  rw [grows.blocks_eq, List.map_append, run_append, answers_append, same, answered,
    List.map_append]
  constructor
  · show (c.call (.peer b)).2 = after
    rw [grows.again]
  · show _ ++ [(c.call (.peer b)).1] = _ ++ [.ok (some b)]
    rw [grows.again]

end Chain

end TokenLedger
