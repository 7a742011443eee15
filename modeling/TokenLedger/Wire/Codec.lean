import TokenLedger.Bytes.Utf8
import TokenLedger.Bytes.Word
import TokenLedger.OutputRef

/-!
Binary codecs, put together from parts. A codec writes a value and reads one off the front of some
bytes; the first thing that cannot be read is the error.

Numbers have a fixed width and come with their least significant byte first. Texts and lists come
after their length. What follows a value is left alone.
-/

namespace TokenLedger.Wire

/-- Why bytes are not the binary form of a value. -/
inductive CodecError where
  /-- The bytes end inside a number. -/
  | endOfInput
  /-- The bytes end inside a text whose length was read. -/
  | endOfText
  | notUtf8 (e : Utf8.Error)
  | notBool (found : UInt8)
  | notOption (found : UInt8)
  /-- The number of a variant is not below the count of variants. -/
  | noVariant (found : UInt32) (count : Nat)
  | notReference (e : RefError)
deriving DecidableEq, Repr

/-- The wording of an error. -/
def CodecError.message : CodecError → String
  | .endOfInput => "io error: unexpected end of file"
  | .endOfText => "io error: "
  | .notUtf8 e =>
    let cause := e.message
    s!"string is not valid utf8: {cause}"
  | .notBool found => s!"invalid u8 while decoding bool, expected 0 or 1, found {found}"
  | .notOption found => s!"tag for enum is not valid, found {found}"
  | .noVariant found count =>
    s!"invalid value: integer `{found}`, expected variant index 0 <= i < {count}"
  | .notReference e => e.message

/-- A way of writing values as bytes and reading them back off the front. -/
structure Codec (α : Type) where
  encode : α → Bytes
  decode : Bytes → Except CodecError (α × Bytes)

namespace Codec

variable {α β : Type}

/-- The first `count` bytes and the ones after them, if there are so many. -/
def splitAt? (count : Nat) (bytes : Bytes) : Option (Bytes × Bytes) :=
  let first := bytes.take count
  if first.length = count then some (first, bytes.drop count) else none

/-- A number in `width` bytes. -/
def number (width : Nat) : Codec Nat where
  encode n := Word.littleEndian width n
  decode bytes :=
    match splitAt? width bytes with
    | some (first, rest) => .ok (Word.ofLittleEndian first, rest)
    | none => .error .endOfInput

/-- The same bytes for values of another type. -/
def imap (c : Codec α) (f : α → β) (g : β → α) : Codec β where
  encode b := c.encode (g b)
  decode bytes := do
    let (a, rest) ← c.decode bytes
    return (f a, rest)

/-- The same bytes for values that not every read value stands for. -/
def refine (c : Codec α) (f : α → Except CodecError β) (g : β → α) : Codec β where
  encode b := c.encode (g b)
  decode bytes := do
    let (a, rest) ← c.decode bytes
    let b ← f a
    return (b, rest)

/-- A value and after it another. -/
def pair (first : Codec α) (second : Codec β) : Codec (α × β) where
  encode v := first.encode v.1 ++ second.encode v.2
  decode bytes := do
    let (a, rest) ← first.decode bytes
    let (b, rest) ← second.decode rest
    return ((a, b), rest)

def word8 : Codec UInt8 := (number 1).imap UInt8.ofNat UInt8.toNat
def word32 : Codec UInt32 := (number 4).imap UInt32.ofNat UInt32.toNat
def word64 : Codec UInt64 := (number 8).imap UInt64.ofNat UInt64.toNat

/-- A signed number goes by the word of the same bits. -/
def int32 : Codec Int32 := word32.imap Int32.ofUInt32 Int32.toUInt32

/-- A truth value is the byte 0 or 1. -/
def bool : Codec Bool := word8.refine
  (fun b => if b = 0 then .ok false else if b = 1 then .ok true else .error (.notBool b))
  (fun v => if v then 1 else 0)

/-- A text comes after the count of its bytes. -/
def text : Codec String where
  encode s :=
    let bytes := Utf8.encode s
    word64.encode (UInt64.ofNat bytes.length) ++ bytes
  decode bytes := do
    let (length, rest) ← word64.decode bytes
    match splitAt? length.toNat rest with
    | none => .error .endOfText
    | some (first, rest) =>
      match Utf8.decode first with
      | .ok s => .ok (s, rest)
      | .error e => .error (.notUtf8 e)

/-- A value that may be absent comes after the byte 1; the byte 0 alone is its absence. -/
def option (c : Codec α) : Codec (Option α) where
  encode
    | none => word8.encode 0
    | some a => word8.encode 1 ++ c.encode a
  decode bytes := do
    let (tag, rest) ← word8.decode bytes
    if tag = 0 then return (none, rest)
    else if tag = 1 then
      let (a, rest) ← c.decode rest
      return (some a, rest)
    else .error (.notOption tag)

/-- Reads `count` values. -/
def decodeMany (c : Codec α) : (count : Nat) → Bytes → Except CodecError (List α × Bytes)
  | 0, bytes => .ok ([], bytes)
  | count + 1, bytes => do
    let (a, rest) ← c.decode bytes
    let (as, rest) ← decodeMany c count rest
    return (a :: as, rest)

/-- A list comes after the count of its values. -/
def list (c : Codec α) : Codec (List α) where
  encode as := word64.encode (UInt64.ofNat as.length) ++ as.flatMap c.encode
  decode bytes := do
    let (count, rest) ← word64.decode bytes
    decodeMany c count.toNat rest

/-- One of some variants without content goes by its place among them. -/
def variant [DecidableEq α] (all : List α) : Codec α := word32.refine
  (fun n =>
    match all[n.toNat]? with
    | some a => .ok a
    | none => .error (.noVariant n all.length))
  (fun a => UInt32.ofNat (all.idxOf a))

/-- One of two variants goes by its place, and its content after that. -/
def either (first : Codec α) (second : Codec β) : Codec (α ⊕ β) where
  encode
    | .inl a => word32.encode 0 ++ first.encode a
    | .inr b => word32.encode 1 ++ second.encode b
  decode bytes := do
    let (tag, rest) ← word32.decode bytes
    if tag = 0 then
      let (a, rest) ← first.decode rest
      return (.inl a, rest)
    else if tag = 1 then
      let (b, rest) ← second.decode rest
      return (.inr b, rest)
    else .error (.noVariant tag 2)

/-- A reference goes by its text. -/
def reference : Codec OutputRef := text.refine
  (fun s =>
    match OutputRef.parse s with
    | .ok r => .ok r
    | .error e => .error (.notReference e))
  OutputRef.text

end Codec

end TokenLedger.Wire
