import TokenLedger.Chain.Derivation
import TokenLedger.Store.Database

/-!
The ledger with the blocks that were derived into it. A block is applied only on top of the head,
and either wholly or not at all. A block from elsewhere is never trusted: it is derived again, and
any difference rejects it.
-/

namespace TokenLedger

/-- A ledger and the blocks that led to it, in order. -/
structure Chain (σ : Type) where
  genesis : Genesis
  store : σ
  blocks : List Block := []

/-- How far a halving search has to go right in a list: the first place where the test fails, if it
holds up to some place and fails from there on. -/
def turningPoint {α : Type} (test : α → Bool) (items : List α) : Nat :=
  go items.length 0 items.length
where
  /-- Narrows down the `size` places from `base` on. -/
  go : (fuel base size : Nat) → Nat
    | 0, base, _ => base
    | fuel + 1, base, size =>
      if size ≤ 1 then
        if (items[base]?).any test then base + 1 else base
      else
        let half := size / 2
        go fuel (if (items[base + half]?).any test then base + half else base) (size - half)

/-- What is known of a chain as a whole. -/
structure ChainStats where
  genesisHeight : UInt64
  headHeight? : Option UInt64
  blockCount : Nat
  txCount : Nat
  totalBurntFee : UInt64
deriving DecidableEq, Repr

namespace Chain

variable {σ : Type}

/-- The last block. -/
def head? (c : Chain σ) : Option Block := c.blocks.getLast?

/-- The height of the last block. -/
def headHeight? (c : Chain σ) : Option UInt64 := c.head?.map Block.height

/-- The height that the next block has to have. -/
def nextHeight (c : Chain σ) : Except Overflow UInt64 :=
  match c.head? with
  | some head => Amount.add head.height 1
  | none => .ok c.genesis.height

/-- The blocks at or above a height. -/
def blocksFrom (c : Chain σ) (height : UInt64) : List Block :=
  c.blocks.drop (turningPoint (fun b => b.height < height) c.blocks)

/-- What is known of the chain as a whole. -/
def stats (c : Chain σ) : Except Overflow ChainStats := do
  let fees ← c.blocks.mapM Block.totalBurntFee
  let totalBurntFee ← Amount.sum fees
  return {
    genesisHeight := c.genesis.height
    headHeight? := c.headHeight?
    blockCount := c.blocks.length
    txCount := (c.blocks.flatMap Block.txs).length
    totalBurntFee }

/-- Checks that a block goes on from the head. -/
def checkContinuity (c : Chain σ) (raw : RawBlock) : Except (Stop Rejection) Unit :=
  match c.nextHeight with
  | .error o => .error (.overflow o)
  | .ok expected =>
    if raw.height ≠ expected then .error (.refused (.heightMismatch expected raw.height))
    else
      match c.head? with
      | some head =>
        if raw.previousHash ≠ head.hash then
          .error (.refused (.previousHashMismatch raw.height head.hash raw.previousHash))
        else (checkTxIds raw.height [] raw.txs).mapError .refused
      | none => (checkTxIds raw.height [] raw.txs).mapError .refused

variable [Store σ]

/-- Derives a block on top of the chain. Blocks below the first height are passed over. -/
def stage (c : Chain σ) (raw : RawBlock) :
    Except (Stop Rejection) (Option (Block × List Change)) × Chain σ :=
  if raw.height < c.genesis.height then (.ok none, c)
  else
    match c.checkContinuity raw with
    | .error e => (.error e, c)
    | .ok () =>
      match deriveBlock c.genesis raw c.store with
      | (.error e, s) => (.error (.refused e), { c with store := s })
      | (.ok staged, s) => (.ok (some staged), { c with store := s })

/-- Takes a derived block in. -/
def commit (c : Chain σ) (b : Block) (changes : List Change) :
    Except (Stop Rejection) (Option Block) × Chain σ :=
  match Store.commitBlock c.store changes b with
  | (.ok (), s) => (.ok (some b), { c with store := s, blocks := c.blocks ++ [b] })
  | (.error e, s) => (.error (.refused (.store e)), { c with store := s })

/-- Derives a block and takes it in if `check` has nothing against what was derived. -/
def applyChecked (c : Chain σ) (raw : RawBlock) (check : Block → Option Rejection) :
    Except (Stop Rejection) (Option Block) × Chain σ :=
  match c.stage raw with
  | (.error e, c) => (.error e, c)
  | (.ok none, c) => (.ok none, c)
  | (.ok (some (b, changes)), c) =>
    match check b with
    | some r => (.error (.refused r), c)
    | none => c.commit b changes

/-- Applies a block of the underlying chain. The answer is the derived block, or none if the block
was passed over. -/
def applyRaw (c : Chain σ) (raw : RawBlock) : Except (Stop Rejection) (Option Block) × Chain σ :=
  c.applyChecked raw fun _ => none

/-- What is held against a derived block if it is not the claimed one. -/
def refuseDivergence (claimed derived : Block) : Option Rejection :=
  (divergence? derived claimed).map (.divergence claimed.height ·)

/-- Applies a block from elsewhere that contradicts neither itself nor the ledger. A transaction
that was left out of it goes unnoticed. -/
def applyPeer (c : Chain σ) (claimed : Block) :
    Except (Stop Rejection) (Option Block) × Chain σ :=
  c.applyChecked claimed.toRaw (refuseDivergence claimed)

/-- Applies a block from elsewhere that is what follows from the block of the underlying chain. -/
def applyPeerWithRaw (c : Chain σ) (claimed : Block) (raw : RawBlock) :
    Except (Stop Rejection) (Option Block) × Chain σ :=
  if raw.height ≠ claimed.height then
    (.error (.refused (.divergence claimed.height (.height raw.height))), c)
  else c.applyChecked raw (refuseDivergence claimed)

/-- The chain that is kept in a database. -/
def resume (g : Genesis) (db : Database) : Except StoreError (Chain Database) := do
  return { genesis := g, store := db, blocks := ← db.blocksFrom 0 }

end Chain

end TokenLedger
