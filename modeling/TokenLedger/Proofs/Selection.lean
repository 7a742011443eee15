import TokenLedger.Proofs.Chain.Growth

/-!
What a derived block keeps of the block that it was derived from. Its header is that of the block, and
its transactions are those of the block, in order and unaltered, that are about token when it is their
turn. To leave out the others is harmless: they leave the ledger exactly as they find it
(`derived_block_keeps_what_is_about_token`).
-/

namespace TokenLedger

section

variable {σ : Type} [Store σ] {g : Genesis} {height : UInt64}

/-- What the transaction at a position finds, once the ones before it were derived on a store. -/
def turn (g : Genesis) (height : UInt64) (raws : List RawTx) (s : σ) (position : Nat) : σ :=
  (deriveTxs g height (raws.take position) s).2

/-- The transactions that are about token when it is their turn. -/
def aboutToken (g : Genesis) (height : UInt64) (raws : List RawTx) (s : σ) : List RawTx :=
  (raws.zipIdx.filter fun e => g.AboutToken height (turn g height raws s e.2) e.1).map Prod.fst

theorem turn_cons {raw : RawTx} {tx? : Option Tx} {s next : σ}
    (first : deriveTx g height raw s = (.ok tx?, next)) (raws : List RawTx) (position : Nat) :
    turn g height (raw :: raws) s (position + 1) = turn g height raws next position := by
  rw [turn, turn, List.take_succ_cons, deriveTxs, first]
  dsimp only
  cases deriveTxs g height (raws.take position) next with
  | mk answer last => cases answer <;> rfl

/-- After the first transaction, the others are at their turns as if they had begun there. -/
theorem aboutToken_cons {raw : RawTx} {tx? : Option Tx} {s next : σ}
    (first : deriveTx g height raw s = (.ok tx?, next)) (raws : List RawTx) :
    aboutToken g height (raw :: raws) s
      = if g.AboutToken height s raw then raw :: aboutToken g height raws next
        else aboutToken g height raws next := by
  have later : ((raws.zipIdx 1).filter fun e =>
        g.AboutToken height (turn g height (raw :: raws) s e.2) e.1).map Prod.fst
      = aboutToken g height raws next := by
    rw [List.zipIdx_succ, List.filter_map, List.map_map, aboutToken]
    simp only [Function.comp_def, turn_cons first]
  have own : turn g height (raw :: raws) s 0 = s := rfl
  rw [aboutToken, List.zipIdx_cons, List.filter_cons, own]
  split
  · rename_i about
    rw [List.map_cons, later, if_pos (of_decide_eq_true about)]
  · rename_i other
    rw [later, if_neg fun about => other (decide_eq_true about)]

/-- The records are of the transactions that are about token, and the others leave no trace. -/
theorem deriveTxs_aboutToken [LawfulStore σ] {raws : List RawTx} {txs : List Tx} {s s' : σ}
    {u : UnspentSet} (holds : Holds s u) (bears : u.BearsValue)
    (derived : deriveTxs g height raws s = (.ok txs, s')) :
    txs.map Tx.toRaw = aboutToken g height raws s
      ∧ ∀ i raw, raws[i]? = some raw → ¬ g.AboutToken height (turn g height raws s i) raw →
        turn g height raws s (i + 1) = turn g height raws s i := by
  induction raws generalizing s u txs with
  | nil =>
    cases derived
    exact ⟨rfl, nofun⟩
  | cons raw raws ih =>
    rcases deriveTxs_cons_ok holds bears derived with
      ⟨tx, rest, next, rfl, about, first, follows, made, later⟩ | ⟨other, passed, later⟩
    · obtain ⟨same, traceless⟩ :=
        ih (holds_of_perform holds made) (bears.foldl_changes follows.paid height) later
      constructor
      · rw [List.map_cons, same, follows.unaltered, aboutToken_cons first, if_pos about]
      · intro i t listed notAbout
        cases i with
        | zero =>
          cases listed
          exact absurd about notAbout
        | succ i =>
          rw [turn_cons first] at notAbout
          rw [turn_cons first, turn_cons first]
          exact traceless i t listed notAbout
    · obtain ⟨same, traceless⟩ := ih holds bears later
      constructor
      · rw [aboutToken_cons passed, if_neg other]
        exact same
      · intro i t listed notAbout
        cases i with
        | zero =>
          rw [turn_cons passed]
          rfl
        | succ i =>
          rw [turn_cons passed] at notAbout
          rw [turn_cons passed, turn_cons passed]
          exact traceless i t listed notAbout

end

namespace Chain

/-- What the transaction at a position of a block finds on top of a chain: the ledger, and held back
above it what the ones before have done. -/
def turn {σ : Type} [Store σ] (c : Chain σ) (raw : RawBlock) (position : Nat) : Overlay σ :=
  TokenLedger.turn c.genesis raw.height raw.txs { base := c.store } position

/-- For every block that a chain takes in, whatever calls came before: the derived block has the
header of the block, and in order and unaltered those of its transactions that are the issue or whose
references, looked up when it is their turn and each counted once, are worth something. A transaction
that is left out passes the ledger on exactly as it found it. -/
theorem derived_block_keeps_what_is_about_token (g : Genesis) (calls : List Call) (raw : RawBlock)
    {b : Block} {after : Chain UnspentSet}
    (taken : ((start g).run calls).applyRaw raw = (.ok (some b), after)) :
    let c := (start g).run calls
    b.toRaw = { raw with
        txs := (raw.txs.zipIdx.filter fun e =>
          g.AboutToken raw.height (c.turn raw e.2) e.1).map Prod.fst }
      ∧ ∀ i tx, raw.txs[i]? = some tx → ¬ g.AboutToken raw.height (c.turn raw i) tx →
        c.turn raw (i + 1) = c.turn raw i := by
  intro c
  have sound : c.Sound := run_sound g calls
  have genesis_eq : c.genesis = g := genesis_run g calls
  have grows : c.Grows raw b after := sound.grows_of_applyRaw taken
  obtain ⟨o, derived, _⟩ := grows.called
  obtain ⟨height, hash, previousHash⟩ := grows.header
  have holds := Overlay.holds_fresh c.store
  obtain ⟨same, traceless⟩ := deriveTxs_aboutToken holds sound.bears derived
  rw [genesis_eq] at same traceless
  simp only [turn, genesis_eq]
  refine ⟨?_, traceless⟩
  rw [Block.toRaw, height, hash, previousHash, same, aboutToken]

/-- Of these transactions the first spends what is not known, the third lists what the second makes
twice, and the fourth finds that spent already. -/
theorem derived_block_keeps_second_and_third :
    let c := (start ⟨"gen", 10⟩).run
      [.raw ⟨10, "a", "", [⟨"gen", [], [⟨2500, none⟩, ⟨7500, none⟩]⟩]⟩]
    let first : RawTx := ⟨"first", [⟨"unknown", 0⟩], [⟨1, none⟩]⟩
    let second : RawTx := ⟨"second", [⟨"gen", 0⟩, ⟨"third", 0⟩], [⟨2000, none⟩, ⟨0, some [1]⟩]⟩
    let third : RawTx := ⟨"third", [⟨"second", 0⟩, ⟨"second", 0⟩], [⟨1500, none⟩]⟩
    let fourth : RawTx := ⟨"fourth", [⟨"second", 0⟩], [⟨2000, none⟩]⟩
    let raw : RawBlock := ⟨11, "b", "a", [first, second, third, fourth]⟩
    ∃ b after, c.applyRaw raw = (.ok (some b), after)
      ∧ b.toRaw = { raw with txs := [second, third] } ∧ c.turn raw 4 = c.turn raw 3 := by
  have kept := derived_block_keeps_what_is_about_token ⟨"gen", 10⟩
    [.raw ⟨10, "a", "", [⟨"gen", [], [⟨2500, none⟩, ⟨7500, none⟩]⟩]⟩]
    ⟨11, "b", "a", [⟨"first", [⟨"unknown", 0⟩], [⟨1, none⟩]⟩,
      ⟨"second", [⟨"gen", 0⟩, ⟨"third", 0⟩], [⟨2000, none⟩, ⟨0, some [1]⟩]⟩,
      ⟨"third", [⟨"second", 0⟩, ⟨"second", 0⟩], [⟨1500, none⟩]⟩,
      ⟨"fourth", [⟨"second", 0⟩], [⟨2000, none⟩]⟩]⟩ rfl
  exact ⟨_, _, rfl, kept.1, kept.2 3 _ rfl (by decide)⟩

end Chain

end TokenLedger
