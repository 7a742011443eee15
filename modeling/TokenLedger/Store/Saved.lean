import TokenLedger.Store.Database

/-!
The bytes of a whole database: its three maps one after the other, each as the list of its entries,
behind a version.
-/

namespace TokenLedger

namespace Wire.Codec

/-- A map of bytes as the list of its entries. -/
def byteMap : Codec (SortedMap Bytes Bytes) := (list (data.pair data)).imap
  SortedMap.ofList SortedMap.toList

def database : Codec Database := (byteMap.pair (byteMap.pair byteMap)).imap
  (fun (utxos, blocks, info) => { utxos, blocks, info })
  (fun db => (db.utxos, db.blocks, db.info))

end Wire.Codec

/-- The bytes of a database. -/
def Database.bytes (db : Database) : Bytes :=
  Wire.encodeVersioned Wire.Codec.database Wire.recordVersion db

def Database.ofBytes (bytes : Bytes) : Except Wire.Error Database :=
  Wire.decodeVersioned Wire.Codec.database Wire.recordVersion bytes

end TokenLedger
