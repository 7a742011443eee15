import TokenLedger.Unspent
import TokenLedger.Wire.Records

/-!
Stores of unspent outputs. Whatever holds the entries is handed to every computation that needs
them; there is no ledger at large, so several can be worked on side by side.

A call answers, or says why it could not, and in either case leaves a store behind.
-/

namespace TokenLedger

/-- What is wrong with stored bytes. -/
inductive Corruption where
  | notText (e : Utf8.Error)
  | notReference (e : RefError)
  | undecodable (e : Wire.Error)
  /-- The stored height of the head has another size than a word. -/
  | headSize (length : Nat)
  | described (cause : String)
deriving DecidableEq, Repr

/-- The wording of what is wrong. -/
def Corruption.message : Corruption → String
  | notText e => e.message
  | notReference e => e.message
  | undecodable e => e.message
  | headSize length => s!"chain head height is {length} bytes, expected 8"
  | described cause => cause

/-- Why a store refused. -/
inductive StoreFault where
  /-- A block is not above the head that is stored. -/
  | notAboveHead (height head : UInt64)
  | described (cause : String)
deriving DecidableEq, Repr

/-- The wording of a refusal. -/
def StoreFault.message : StoreFault → String
  | notAboveHead height head => s!"block {height} does not extend stored head {head}"
  | described cause => cause

/-- Why a call to a store did not answer. -/
inductive StoreError where
  | backend (f : StoreFault)
  | corrupt (c : Corruption)
deriving DecidableEq, Repr

/-- The wording of an error. -/
def StoreError.message : StoreError → String
  | backend f =>
    let cause := f.message
    s!"State store backend error: {cause}"
  | corrupt c =>
    let cause := c.message
    s!"State store corrupt entry: {cause}"

/-- Applies changes one after the other; the ones before a failure stay. -/
def applyEach {σ : Type} (insert : σ → OutputRef → Utxo → Except StoreError Unit × σ)
    (remove : σ → OutputRef → Except StoreError (Option Utxo) × σ) :
    σ → List Change → Except StoreError Unit × σ
  | s, [] => (.ok (), s)
  | s, (r, some u) :: rest =>
    match insert s r u with
    | (.ok (), s) => applyEach insert remove s rest
    | (.error e, s) => (.error e, s)
  | s, (r, none) :: rest =>
    match remove s r with
    | (.ok _, s) => applyEach insert remove s rest
    | (.error e, s) => (.error e, s)

/-- What holds unspent outputs. -/
class Store (σ : Type) where
  find? : σ → OutputRef → Except StoreError (Option Utxo)
  insert : σ → OutputRef → Utxo → Except StoreError Unit × σ
  /-- Takes an entry out and answers what it was. -/
  remove : σ → OutputRef → Except StoreError (Option Utxo) × σ
  /-- Applies changes, as one where the store can. -/
  applyBatch : σ → List Change → Except StoreError Unit × σ := applyEach insert remove
  /-- Takes in the changes of a derived block, and the block itself where the store keeps blocks. -/
  commitBlock : σ → List Change → Block → Except StoreError Unit × σ :=
    fun s changes _ => applyBatch s changes

namespace UnspentSet

/-- Makes a change to a set. -/
def apply (u : UnspentSet) (c : Change) : UnspentSet :=
  match c with
  | (r, some entry) => u.insert r entry
  | (r, none) => u.erase r

/-- A set held in memory never fails. -/
instance : Store UnspentSet where
  find? u r := .ok (u.find? r)
  insert u r entry := (.ok (), u.insert r entry)
  remove u r := (.ok (u.find? r), u.erase r)

/-- A batch is applied change by change. -/
theorem applyBatch_eq (u : UnspentSet) (changes : List Change) :
    Store.applyBatch u changes = (.ok (), changes.foldl apply u) := by
  change applyEach Store.insert Store.remove u changes = _
  induction changes generalizing u with
  | nil => rfl
  | cons c rest ih =>
    obtain ⟨r, entry?⟩ := c
    cases entry? with
    | some entry => exact ih (u.insert r entry)
    | none => exact ih (u.erase r)

theorem commitBlock_eq (u : UnspentSet) (changes : List Change) (b : Block) :
    Store.commitBlock u changes b = (.ok (), changes.foldl apply u) :=
  applyBatch_eq u changes

end UnspentSet

end TokenLedger
