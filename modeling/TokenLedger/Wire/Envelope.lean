import TokenLedger.Wire.Codec

/-!
Binary forms behind a version. The version is looked at before anything else, so that bytes written
in a newer form are refused as such and never misread.
-/

namespace TokenLedger.Wire

/-- Why versioned bytes cannot be read. -/
inductive Error where
  /-- There are too few bytes for a version. -/
  | truncated (length : Nat)
  | unsupportedVersion (found supported : UInt32)
  | codec (e : CodecError)
deriving DecidableEq, Repr

/-- The wording of an error. -/
def Error.message : Error → String
  | .truncated length => s!"Wire error: {length} bytes is shorter than header"
  | .unsupportedVersion found supported =>
    s!"Unsupported version: found {found}, this node supports {supported}"
  | .codec e =>
    let cause := e.message
    s!"Wire codec error: {cause}"

/-- How many bytes a version takes. -/
def headerSize : Nat := 4

/-- The version in which records are stored. -/
def recordVersion : UInt32 := 1

/-- The version of some bytes. -/
def peekVersion (bytes : Bytes) : Except Error UInt32 :=
  if bytes.length < headerSize then .error (.truncated bytes.length)
  else .ok (UInt32.ofNat (Word.ofLittleEndian (bytes.take headerSize)))

/-- A value behind a version. -/
def encodeVersioned {α : Type} (c : Codec α) (version : UInt32) (a : α) : Bytes :=
  Codec.word32.encode version ++ c.encode a

/-- Reads a value behind the one version that is supported. -/
def decodeVersioned {α : Type} (c : Codec α) (supported : UInt32) (bytes : Bytes) :
    Except Error α := do
  let found ← peekVersion bytes
  if found = supported then
    match c.decode (bytes.drop headerSize) with
    | .ok (a, _) => .ok a
    | .error e => .error (.codec e)
  else .error (.unsupportedVersion found supported)

end TokenLedger.Wire
