import TokenLedger.Proofs.Supply

/-!
When a block is taken in. What a transaction spends was unspent before it, so it is worth no more than
all that was issued. If the issue itself fits a balance, every balance does, in the middle of a block
as well, and whatever the transactions are: no block is refused for them, and nothing that is
computed along the way leaves its word (`taken_in_iff_goes_on`).
-/

namespace TokenLedger

/-- The token value that transactions of a block would bring into being. -/
def Genesis.issuedByAll (g : Genesis) (height : UInt64) (raws : List RawTx) : Nat :=
  (raws.map (g.issuedBy height)).sum

/-- Where all that there is and all that is issued fit a balance together, every transaction is
derived. -/
theorem deriveTxs_ok {σ : Type} [Store σ] [LawfulStore σ] {g : Genesis} {height : UInt64}
    {raws : List RawTx} {s : σ} {u : UnspentSet} (holds : Holds s u) (bears : u.BearsValue)
    (room : u.totalValue + g.issuedByAll height raws < 0x8000000000000000) :
    ∃ txs s', deriveTxs g height raws s = (.ok txs, s') := by
  -- A record turns room that its transaction issues into room that the set takes up, and no more.
  induction raws generalizing s u with
  | nil => exact ⟨[], s, rfl⟩
  | cons raw raws ih =>
    rw [Genesis.issuedByAll, List.map_cons, List.sum_cons] at room
    rcases deriveTx_cases holds bears g height raw with
      ⟨_, tx, next, first, follows, made⟩ | ⟨_, passed⟩ | ⟨large, _⟩
    · have supply := follows.supply_le
      have left : UnspentSet.totalValue ((tx.changes height).foldl UnspentSet.apply u)
          + g.issuedByAll height raws < 0x8000000000000000 := by
        rw [Genesis.issuedByAll]
        omega
      obtain ⟨txs, last, later⟩ :=
        ih (holds_of_perform holds made) (bears.foldl_changes follows.paid height) left
      exact ⟨tx :: txs, last, by simp only [deriveTxs, first, later]; rfl⟩
    · have left : u.totalValue + g.issuedByAll height raws < 0x8000000000000000 := by
        rw [Genesis.issuedByAll]
        omega
      obtain ⟨txs, last, later⟩ := ih holds bears left
      exact ⟨txs, last, by simp only [deriveTxs, passed, later]; rfl⟩
    · have within := worth_le_totalValue holds raw.inputs
      rw [fitsWord_natCast_iff] at large
      omega

namespace Genesis

variable {g : Genesis} {height : UInt64} {raws : List RawTx}

theorem issuedByAll_eq : g.issuedByAll height raws
    = g.issuedTotal height (raws.map fun raw => Tx.ofRaw raw height) := by
  simp only [issuedByAll, issuedTotal, List.map_map, Function.comp_def, toRaw_ofRaw]

/-- Of different transactions at most one issues, so together they issue no more than that one. -/
theorem issuedByAll_lt {limit : Nat} (positive : 0 < limit) (distinct : (raws.map RawTx.id).Nodup)
    (small : ∀ raw ∈ raws, raw.id = g.txId → raw.issuable < limit) :
    g.issuedByAll height raws < limit := by
  rw [issuedByAll_eq]
  by_cases first : height = g.height
  · have ids : ((raws.map fun raw => Tx.ofRaw raw height).map Tx.id).Nodup := by
      rw [List.map_map]
      exact distinct
    rw [issuedTotal_of_eq first ids]
    cases issue : (raws.map fun raw => Tx.ofRaw raw height).find? fun tx => tx.id = g.txId with
    | none => exact positive
    | some tx =>
      have same : tx.id = g.txId := by simpa using List.find?_some issue
      obtain ⟨raw, member, rfl⟩ := List.mem_map.1 (List.mem_of_find?_eq_some issue)
      rw [Option.map_some, Option.getD_some, toRaw_ofRaw]
      exact small raw member same
  · rw [issuedTotal_of_ne first]
    exact positive

end Genesis

namespace Chain

/-! ## The supply -/

variable {c after : Chain UnspentSet} {raw : RawBlock} {b : Block}

/-- What was burnt can be told as long as a word holds it. -/
theorem stats_eq_ok {σ : Type} {c : Chain σ} (small : c.burntTotal < UInt64.size) :
    ∃ stats, c.stats = .ok stats ∧ stats.totalBurntFee.toNat = c.burntTotal := by
  have each : ∃ fees, c.blocks.mapM Block.totalBurntFee = .ok fees
      ∧ Amount.total fees = c.burntTotal := by
    revert small
    unfold burntTotal
    induction c.blocks with
    | nil => exact fun _ => ⟨[], rfl, rfl⟩
    | cons b rest ih =>
      intro small
      rw [List.map_cons, List.sum_cons] at small
      obtain ⟨fees, later, total⟩ := ih (by omega)
      have first : b.totalBurntFee = .ok (UInt64.ofNat (TokenLedger.burntTotal b.txs)) :=
        Amount.sum_eq_ok (show TokenLedger.burntTotal b.txs < UInt64.size by omega)
      refine ⟨UInt64.ofNat (TokenLedger.burntTotal b.txs) :: fees, ?_, ?_⟩
      · rw [List.mapM_cons, first, later]
        rfl
      · rw [Amount.total_cons, total, List.map_cons, List.sum_cons,
          UInt64.toNat_ofNat_of_lt' (by omega)]
  obtain ⟨fees, told, total⟩ := each
  rw [← total] at small
  rw [stats, told]
  refine ⟨_, by rw [ok_bind, Amount.sum_eq_ok small]; rfl, ?_⟩
  rw [← total]
  exact UInt64.toNat_ofNat_of_lt' small

/-! ## Blocks that go on from the head -/

/-- Where there is room for what a block issues beside all that is unspent, the block is taken in if it
goes on from the head. -/
theorem Sound.applyRaw (sound : c.Sound) (notBelow : ¬ raw.height < c.genesis.height)
    (goesOn : c.checkContinuity raw = .ok ())
    (room : c.store.totalValue + c.genesis.issuedByAll raw.height raw.txs < 0x8000000000000000) :
    ∃ b after, c.applyRaw raw = (.ok (some b), after) := by
  have itself : Holds c.store c.store := holds_unspentSet_iff.2 rfl
  obtain ⟨txs, u, derived⟩ := deriveTxs_ok itself sound.bears room
  exact ⟨_, _, applyRaw_eq_some_iff.2 ⟨notBelow, goesOn, txs, u, derived, rfl, rfl⟩⟩

/-- Below the highest height of all there is a next one. -/
theorem nextHeight_eq_ok {σ : Type} {d : Chain σ}
    (below : ∀ head, d.headHeight? = some head → head.toNat < UInt64.size - 1) :
    ∃ height, d.nextHeight = .ok height := by
  unfold nextHeight
  cases last : d.head? with
  | none => exact ⟨d.genesis.height, rfl⟩
  | some head =>
    have small := below head.height (by rw [headHeight?, last]; rfl)
    have one : (1 : UInt64).toNat = 1 := rfl
    have added : Amount.add? head.height 1 = some (head.height + 1) := by
      unfold UInt64.size at small
      rw [Amount.add?_eq_some_iff, UInt64.toNat_add]
      exact (Nat.mod_eq_of_lt (by omega)).symm
    refine ⟨head.height + 1, ?_⟩
    simp only [Amount.add, added]

/-- The issue of a chain, or of the block that is to be its first one, leaves room for everything. -/
theorem room_of_issue_fits (g : Genesis) (calls : List Call) {raw : RawBlock}
    (goesOn : ((start g).run calls).checkContinuity raw = .ok ())
    (fits : FitsWord ((start g).run calls).issuedTotal)
    (fitsFirst : ((start g).run calls).blocks = [] →
      ∀ tx ∈ raw.txs, tx.id = g.txId → FitsWord tx.issuable) :
    let c := (start g).run calls
    c.store.totalValue + c.genesis.issuedByAll raw.height raw.txs < 0x8000000000000000 := by
  intro c
  have supply : c.store.totalValue + c.burntTotal ≤ c.issuedTotal := supply_le_run g calls
  have sound : c.Sound := run_sound g calls
  obtain ⟨next, _, _, ids⟩ := checkContinuity_eq_ok_iff.1 goesOn
  have genesis_eq : c.genesis = g := genesis_run g calls
  have small : c.issuedTotal < 0x8000000000000000 := fitsWord_natCast_iff.1 fits
  cases blocks : c.blocks with
  | nil =>
    have nothing : c.issuedTotal = 0 := by
      rw [issuedTotal, issue?, blocks]
      rfl
    have issued : c.genesis.issuedByAll raw.height raw.txs < 0x8000000000000000 := by
      refine Genesis.issuedByAll_lt (by decide) ids fun tx member same => ?_
      rw [genesis_eq] at same
      exact fitsWord_natCast_iff.1 (fitsFirst blocks tx member same)
    omega
  | cons head rest =>
    have later : raw.height ≠ c.genesis.height := by
      rw [ne_eq, sound.first_iff next, blocks]
      exact List.cons_ne_nil head rest
    rw [Genesis.issuedByAll_eq, Genesis.issuedTotal_of_ne later]
    omega

/-- A chain that has taken a block in still has an issue that fits. -/
theorem Grows.issue_fits (grows : c.Grows raw b after) (fits : FitsWord c.issuedTotal)
    (fitsFirst : c.blocks = [] → ∀ tx ∈ raw.txs, tx.id = c.genesis.txId → FitsWord tx.issuable) :
    FitsWord after.issuedTotal := by
  cases blocks : c.blocks with
  | nil =>
    have issue : after.issue? = b.txs.find? fun tx => tx.id = c.genesis.txId := by
      rw [issue?, grows.blocks_eq, grows.genesis_eq, blocks]
      rfl
    rw [Chain.issuedTotal, issue]
    cases found : b.txs.find? fun tx => tx.id = c.genesis.txId with
    | none => exact fitsWord_natCast_iff.2 (by decide)
    | some tx =>
      have same : tx.id = c.genesis.txId := by simpa using List.find?_some found
      have member := grows.toRaw_mem (List.mem_of_find?_eq_some found)
      exact fitsFirst blocks tx.toRaw member same
  | cons first rest =>
    have issue : after.issue? = c.issue? := by
      rw [issue?, issue?, grows.blocks_eq, grows.genesis_eq, blocks]
      rfl
    rw [Chain.issuedTotal, issue]
    exact fits

/-- Where the issue fits, what was burnt can be told after any calls. -/
theorem stats_run_eq_ok (g : Genesis) (calls : List Call)
    (fits : FitsWord ((start g).run calls).issuedTotal) :
    ∃ stats, ((start g).run calls).stats = .ok stats := by
  have supply := supply_le_run g calls
  have small := fitsWord_natCast_iff.1 fits
  obtain ⟨stats, told, _⟩ := stats_eq_ok (c := (start g).run calls) (by unfold UInt64.size; omega)
  exact ⟨stats, told⟩

/-- A block that does not go on from the head is refused for that. -/
theorem applyRaw_eq_error {σ : Type} [Store σ] {d : Chain σ} {raw : RawBlock} {e : Stop Rejection}
    (notBelow : ¬ raw.height < d.genesis.height) (stopped : d.checkContinuity raw = .error e) :
    d.applyRaw raw = (.error e, d) := by
  simp only [applyRaw, applyChecked, stage, if_neg notBelow, stopped]

/-- As long as the issue fits a balance, a block is taken in exactly if it has the next height, names
the head as the one before it, and its ids are well-formed and different, whatever its transactions
are. Nothing overflows: not the values behind inputs, not the next height, not the payments and the
fee, and not the sum of all fees afterwards. -/
theorem taken_in_iff_goes_on (g : Genesis) (calls : List Call) (raw : RawBlock)
    (notLast : ∀ head, ((start g).run calls).headHeight? = some head →
      head.toNat < UInt64.size - 1)
    (notBelow : g.height ≤ raw.height) (fits : FitsWord ((start g).run calls).issuedTotal)
    (fitsFirst : ((start g).run calls).blocks = [] →
      ∀ tx ∈ raw.txs, tx.id = g.txId → FitsWord tx.issuable) :
    let c := (start g).run calls
    ((∃ b after, c.applyRaw raw = (.ok (some b), after))
        ↔ c.nextHeight = .ok raw.height
          ∧ (∀ head, c.head? = some head → raw.previousHash = head.hash)
          ∧ (∀ tx ∈ raw.txs, WellFormedId tx.id) ∧ (raw.txs.map RawTx.id).Nodup)
      ∧ (∀ txId, (c.applyRaw raw).1 ≠ .error (.refused (.balanceOverflow txId)))
      ∧ (∀ o, (c.applyRaw raw).1 ≠ .error (.overflow o))
      ∧ (∀ (balance : Balance) (value : UInt64) (covered : balance.Covers value),
        balance.subtract value.toNat = .ok (balance.pay value covered))
      ∧ (∀ balance : Balance, 0 ≤ balance.value → (balance.amount.toNat : Int) = balance.value)
      ∧ ∃ stats, (c.applyRaw raw).2.stats = .ok stats := by
  intro c
  have sound : c.Sound := run_sound g calls
  have genesis_eq : c.genesis = g := genesis_run g calls
  have above : ¬ raw.height < c.genesis.height := by
    rw [genesis_eq, UInt64.lt_iff_toNat_lt]
    exact Nat.not_lt_of_le (UInt64.le_iff_toNat_le.1 notBelow)
  have taken : c.checkContinuity raw = .ok () →
      ∃ b after, c.applyRaw raw = (.ok (some b), after) := by
    intro goesOn
    exact sound.applyRaw above goesOn (room_of_issue_fits g calls goesOn fits fitsFirst)
  rw [← checkContinuity_eq_ok_iff]
  refine ⟨⟨?_, taken⟩, ?_⟩
  · rintro ⟨b, after, answered⟩
    exact (sound.grows_of_applyRaw answered).goesOn
  cases checked : c.checkContinuity raw with
  | ok _ =>
    obtain ⟨b, after, answered⟩ := taken checked
    have run : (start g).run (calls ++ [.raw raw]) = after := by
      rw [run_append]
      exact congrArg Prod.snd answered
    have fitsAfter : FitsWord after.issuedTotal := by
      refine (sound.grows_of_applyRaw answered).issue_fits fits ?_
      rw [genesis_eq]
      exact fitsFirst
    rw [answered]
    refine ⟨nofun, nofun, fun _ _ => Balance.subtract_eq_ok_pay, fun _ => Balance.toNat_amount, ?_⟩
    rw [← run] at fitsAfter ⊢
    exact stats_run_eq_ok g _ fitsAfter
  | error e =>
    rw [applyRaw_eq_error above checked]
    refine ⟨?_, ?_, fun _ _ => Balance.subtract_eq_ok_pay, fun _ => Balance.toNat_amount,
      stats_run_eq_ok g calls fits⟩
    · intro txId refused
      cases refused
      cases discontinuity_of_refused checked
    · intro o stopped
      cases stopped
      obtain ⟨height, next⟩ := nextHeight_eq_ok (d := c) notLast
      rw [nextHeight_of_overflow checked] at next
      cases next

/-- Here the issue is the largest one that fits, and the block spends all of it at once, listing one
part twice beside what is not known. -/
theorem taken_in_with_largest_issue :
    let issue : Call := .raw ⟨10, "a", "", [⟨"gen", [],
      [⟨9223372036854775707, none⟩, ⟨18446744073709551615, some []⟩, ⟨100, none⟩]⟩]⟩
    let spend : RawBlock := ⟨11, "b", "a", [⟨"next", [⟨"gen", 2⟩, ⟨"none", 0⟩, ⟨"gen", 0⟩,
      ⟨"gen", 2⟩], [⟨9223372036854775807, none⟩, ⟨18446744073709551615, none⟩]⟩]⟩
    let c := (start ⟨"gen", 10⟩).run [issue]
    c.issuedTotal = 9223372036854775807 ∧ ∃ b after, c.applyRaw spend = (.ok (some b), after) := by
  intro issue spend c
  have issued : c.issuedTotal = 9223372036854775807 := by decide
  refine ⟨issued, (taken_in_iff_goes_on ⟨"gen", 10⟩ [issue] spend ?_ (by decide) ?_ nofun).1.2 ?_⟩
  · rintro head ⟨⟩
    decide
  · show FitsWord c.issuedTotal
    rw [issued]
    decide
  · refine ⟨rfl, ?_, by decide, by decide⟩
    rintro head ⟨⟩
    rfl

end Chain

end TokenLedger
