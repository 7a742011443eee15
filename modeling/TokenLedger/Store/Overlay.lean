import TokenLedger.Store

/-!
Changes held back above a store. Reads fall through to the store where nothing was changed; the
changes reach it all at once or not at all, so whatever fails in between leaves it alone.
-/

namespace TokenLedger

/-- A store and the changes that are held back from it. -/
structure Overlay (σ : Type) where
  base : σ
  writes : SortedMap OutputRef (Option Utxo) := SortedMap.empty

namespace Overlay

variable {σ : Type}

/-- How many entries are changed. -/
def pending (o : Overlay σ) : Nat := o.writes.size

/-- The changes by ascending reference. -/
def changes (o : Overlay σ) : List Change := o.writes.toList

/-- Holds an entry back. -/
def put (o : Overlay σ) (r : OutputRef) (entry : Utxo) : Overlay σ :=
  { o with writes := o.writes.insert r (some entry) }

/-- Holds the end of an entry back. -/
def drop (o : Overlay σ) (r : OutputRef) : Overlay σ :=
  { o with writes := o.writes.insert r none }

/-- The entry under a reference: as it was changed, or else as the store has it. -/
def find? [Store σ] (o : Overlay σ) (r : OutputRef) : Except StoreError (Option Utxo) :=
  match o.writes.find? r with
  | some entry? => .ok entry?
  | none => Store.find? o.base r

instance [Store σ] : Store (Overlay σ) where
  find? := find?
  insert o r entry := (.ok (), o.put r entry)
  remove o r :=
    match o.find? r with
    | .ok none => (.ok none, o)
    | .ok (some entry) => (.ok (some entry), o.drop r)
    | .error e => (.error e, o)

/-- Lets the changes through to the store; the answer is how many there were. -/
def commit [Store σ] (o : Overlay σ) : Except StoreError Nat × σ :=
  match Store.applyBatch o.base o.changes with
  | (.ok (), s) => (.ok o.pending, s)
  | (.error e, s) => (.error e, s)

end Overlay

end TokenLedger
