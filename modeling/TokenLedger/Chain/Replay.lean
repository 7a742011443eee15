import TokenLedger.Chain

/-!
Applying many blocks. What lies at or below the head was applied before and is passed over, so the
same blocks can be gone through again after a stop.
-/

namespace TokenLedger.Chain

variable {σ β : Type}

/-- Whether blocks of a height were applied before. -/
def isPast (c : Chain σ) (height : UInt64) : Bool := c.headHeight?.any fun head => height ≤ head

/-- Applies blocks in order up to the first that is rejected. The answer is how many were appended
on top of `count`, or which block was rejected and why. -/
def applyAll (height : β → UInt64)
    (apply : Chain σ → β → Except (Stop Rejection) (Option Block) × Chain σ) :
    (count : Nat) → List β → Chain σ → Except (β × Stop Rejection) Nat × Chain σ
  | count, [], c => (.ok count, c)
  | count, b :: rest, c =>
    if c.isPast (height b) then applyAll height apply count rest c
    else
      match apply c b with
      | (.ok (some _), c) => applyAll height apply (count + 1) rest c
      | (.ok none, c) => applyAll height apply count rest c
      | (.error e, c) => (.error (b, e), c)

variable [Store σ]

/-- Applies blocks of the underlying chain. -/
def replay (c : Chain σ) (blocks : List RawBlock) :
    Except (RawBlock × Stop Rejection) Nat × Chain σ :=
  applyAll RawBlock.height applyRaw 0 blocks c

/-- Applies blocks from elsewhere. -/
def follow (c : Chain σ) (blocks : List Block) : Except (Block × Stop Rejection) Nat × Chain σ :=
  applyAll Block.height applyPeer 0 blocks c

end TokenLedger.Chain
