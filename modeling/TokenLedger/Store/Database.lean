import TokenLedger.Store

/-!
The ledger as it is kept between runs: three ordered maps from bytes to bytes.

* Unspent outputs: the text of the reference, and the stored form of the entry.
* Blocks: the height with its most significant byte first, so that the order of the keys is the
  order of the heights, and the stored form of the block.
* The height of the head, under a key of its own.

The changes of a block, the block and the new head are written as one, so what is unspent never runs
ahead of the head.
-/

namespace TokenLedger

/-- The maps of a ledger that is kept between runs. -/
structure Database where
  utxos : SortedMap Bytes Bytes := SortedMap.empty
  blocks : SortedMap Bytes Bytes := SortedMap.empty
  info : SortedMap Bytes Bytes := SortedMap.empty

namespace Database

/-- The database that nothing was written to. -/
def empty : Database := {}

instance : Inhabited Database := ⟨empty⟩

/-- The key of an unspent output. -/
def utxoKey (r : OutputRef) : Bytes := Utf8.encode r.text

/-- The key of a block. -/
def blockKey (height : UInt64) : Bytes := Word.bigEndian 8 height.toNat

/-- The key of the height of the head. -/
def headKey : Bytes := Utf8.encode "chain_head_height"

/-! ## Unspent outputs -/

/-- Reads a stored entry. -/
def readUtxo (bytes : Bytes) : Except StoreError Utxo :=
  match Utxo.ofBytes bytes with
  | .ok entry => .ok entry
  | .error e => .error (.corrupt (.undecodable e))

/-- Reads a stored entry, if there is one. -/
def readUtxo? : Option Bytes → Except StoreError (Option Utxo)
  | none => .ok none
  | some bytes => do return some (← readUtxo bytes)

/-- Makes a change to the unspent outputs. -/
def applyChange (utxos : SortedMap Bytes Bytes) (c : Change) : SortedMap Bytes Bytes :=
  match c with
  | (r, some entry) => utxos.insert (utxoKey r) entry.bytes
  | (r, none) => utxos.erase (utxoKey r)

/-- How many unspent outputs there are. -/
def size (db : Database) : Nat := db.utxos.size

/-- Reads the reference that a key stands for. -/
def readKey (key : Bytes) : Except StoreError OutputRef :=
  match Utf8.decode key with
  | .error e => .error (.corrupt (.notText e))
  | .ok text =>
    match OutputRef.parse text with
    | .error e => .error (.corrupt (.notReference e))
    | .ok r => .ok r

/-- Reads a stored entry and its key into a set. -/
def readEntry (u : UnspentSet) (e : Bytes × Bytes) : Except StoreError UnspentSet := do
  let r ← readKey e.1
  return u.insert r (← readUtxo e.2)

/-- The unspent outputs in memory. -/
def snapshot (db : Database) : Except StoreError UnspentSet :=
  db.utxos.toList.foldlM readEntry SortedMap.empty

/-! ## Blocks -/

/-- Reads a stored block. -/
def readBlock (bytes : Bytes) : Except StoreError Block :=
  match Block.ofBytes bytes with
  | .ok b => .ok b
  | .error e => .error (.corrupt (.undecodable e))

/-- Reads the stored height of the head. -/
def readHead (bytes : Bytes) : Except StoreError UInt64 :=
  if bytes.length = 8 then .ok (UInt64.ofNat (Word.ofLittleEndian bytes))
  else .error (.corrupt (.headSize bytes.length))

/-- The height of the head, if there is a block. -/
def head? (db : Database) : Except StoreError (Option UInt64) :=
  match db.info.find? headKey with
  | none => .ok none
  | some bytes => do return some (← readHead bytes)

/-- The block of a height. -/
def block? (db : Database) (height : UInt64) : Except StoreError (Option Block) :=
  match db.blocks.find? (blockKey height) with
  | none => .ok none
  | some bytes => do return some (← readBlock bytes)

/-- The blocks at or above a height, in the order of their keys. -/
def blocksFrom (db : Database) (height : UInt64) : Except StoreError (List Block) :=
  (db.blocks.toList.filter fun e => (compare e.1 (blockKey height)).isGE).mapM
    fun e => readBlock e.2

/-- How many blocks there are. -/
def blockCount (db : Database) : Nat := db.blocks.size

/-- What is known of the blocks: how many there are and the height of the head. -/
def stats (db : Database) : Except StoreError (Nat × Option UInt64) := do
  return (db.blockCount, ← db.head?)

/-- Whether a block may be written: it has to lie above the head. -/
def checkHead (db : Database) (b : Block) : Except StoreError Unit := do
  match ← db.head? with
  | none => return ()
  | some head =>
    if b.height ≤ head then .error (.backend (.notAboveHead b.height head)) else return ()

/-- Runs steps as one: what they did stays only if none of them failed. -/
def transact (db : Database) (steps : Database → Except StoreError Unit × Database) :
    Except StoreError Unit × Database :=
  match steps db with
  | (.ok (), after) => (.ok (), after)
  | (.error e, _) => (.error e, db)

/-- Writes the changes of a block, and then the block and its height as the head, if it lies above
the head so far. -/
def writeBlock (changes : List Change) (b : Block) (db : Database) :
    Except StoreError Unit × Database :=
  let db := { db with utxos := changes.foldl applyChange db.utxos }
  match db.checkHead b with
  | .error e => (.error e, db)
  | .ok () =>
    (.ok (), { db with
      blocks := db.blocks.insert (blockKey b.height) b.bytes
      info := db.info.insert headKey (Word.littleEndian 8 b.height.toNat) })

instance : Store Database where
  find? db r := readUtxo? (db.utxos.find? (utxoKey r))
  insert db r entry := (.ok (), { db with utxos := applyChange db.utxos (r, some entry) })
  remove db r :=
    (readUtxo? (db.utxos.find? (utxoKey r)), { db with utxos := applyChange db.utxos (r, none) })
  applyBatch db changes := (.ok (), { db with utxos := changes.foldl applyChange db.utxos })
  commitBlock db changes b := db.transact (writeBlock changes b)

end Database

end TokenLedger
