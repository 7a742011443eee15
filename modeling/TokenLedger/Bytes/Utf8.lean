/-!
The UTF-8 form of text, and the exact place where a run of bytes stops being one.

A reader tells two failures apart: bytes that no continuation can mend (with the length of the part
that has to be given up), and a sequence that the end of the bytes cuts short.
-/

namespace TokenLedger

/-- A run of bytes. -/
abbrev Bytes := List UInt8

namespace Utf8

/-- The one to four bytes of a character. -/
def encodeChar (c : Char) : Bytes :=
  let n := c.toNat
  if n < 0x80 then [UInt8.ofNat n]
  else if n < 0x800 then [UInt8.ofNat (0xC0 + n / 64), UInt8.ofNat (0x80 + n % 64)]
  else if n < 0x10000 then
    [UInt8.ofNat (0xE0 + n / 4096), UInt8.ofNat (0x80 + n / 64 % 64), UInt8.ofNat (0x80 + n % 64)]
  else
    [UInt8.ofNat (0xF0 + n / 262144), UInt8.ofNat (0x80 + n / 4096 % 64),
      UInt8.ofNat (0x80 + n / 64 % 64), UInt8.ofNat (0x80 + n % 64)]

/-- The bytes of a list of characters. -/
def encodeChars (cs : List Char) : Bytes := cs.flatMap encodeChar

/-- The bytes of a text. -/
def encode (s : String) : Bytes := encodeChars s.toList

/-- Where bytes stop being UTF-8, and how. -/
inductive Error where
  /-- The sequence at `start` is wrong, and its first `length` bytes belong together. -/
  | invalid (length start : Nat)
  /-- The bytes end inside the sequence at `start`. -/
  | incomplete (start : Nat)
deriving DecidableEq, Repr

/-- The wording of an error. -/
def Error.message : Error → String
  | .invalid length start => s!"invalid utf-8 sequence of {length} bytes from index {start}"
  | .incomplete start => s!"incomplete utf-8 byte sequence from index {start}"

/-- Whether a byte can only continue a sequence. -/
def IsContinuation (b : Nat) : Prop := 0x80 ≤ b ∧ b ≤ 0xBF

instance (b : Nat) : Decidable (IsContinuation b) := inferInstanceAs (Decidable (_ ∧ _))

/-- Whether a second byte may follow the first byte of a three-byte sequence: the shortest form is
asked for, and surrogates have none. -/
def FollowsLead3 (b0 b1 : Nat) : Prop :=
  if b0 = 0xE0 then 0xA0 ≤ b1 ∧ b1 ≤ 0xBF
  else if b0 = 0xED then 0x80 ≤ b1 ∧ b1 ≤ 0x9F
  else IsContinuation b1

instance (b0 b1 : Nat) : Decidable (FollowsLead3 b0 b1) := by
  unfold FollowsLead3; infer_instance

/-- Whether a second byte may follow the first byte of a four-byte sequence: the shortest form is
asked for, and nothing lies above the last character. -/
def FollowsLead4 (b0 b1 : Nat) : Prop :=
  if b0 = 0xF0 then 0x90 ≤ b1 ∧ b1 ≤ 0xBF
  else if b0 = 0xF4 then 0x80 ≤ b1 ∧ b1 ≤ 0x8F
  else IsContinuation b1

instance (b0 b1 : Nat) : Decidable (FollowsLead4 b0 b1) := by
  unfold FollowsLead4; infer_instance

/-- Reads characters up to the end of the bytes; `start` counts the bytes already read. -/
def decodeFrom (start : Nat) : Bytes → Except Error (List Char)
  | [] => .ok []
  | b0 :: rest =>
    let n0 := b0.toNat
    if n0 < 0x80 then do
      let cs ← decodeFrom (start + 1) rest
      return Char.ofNat n0 :: cs
    else if 0xC2 ≤ n0 ∧ n0 ≤ 0xDF then
      match rest with
      | [] => .error (.incomplete start)
      | b1 :: rest =>
        let n1 := b1.toNat
        if IsContinuation n1 then do
          let cs ← decodeFrom (start + 2) rest
          return Char.ofNat ((n0 - 0xC0) * 64 + (n1 - 0x80)) :: cs
        else .error (.invalid 1 start)
    else if 0xE0 ≤ n0 ∧ n0 ≤ 0xEF then
      match rest with
      | [] => .error (.incomplete start)
      | b1 :: rest =>
        let n1 := b1.toNat
        if FollowsLead3 n0 n1 then
          match rest with
          | [] => .error (.incomplete start)
          | b2 :: rest =>
            let n2 := b2.toNat
            if IsContinuation n2 then do
              let cs ← decodeFrom (start + 3) rest
              return Char.ofNat ((n0 - 0xE0) * 4096 + (n1 - 0x80) * 64 + (n2 - 0x80)) :: cs
            else .error (.invalid 2 start)
        else .error (.invalid 1 start)
    else if 0xF0 ≤ n0 ∧ n0 ≤ 0xF4 then
      match rest with
      | [] => .error (.incomplete start)
      | b1 :: rest =>
        let n1 := b1.toNat
        if FollowsLead4 n0 n1 then
          match rest with
          | [] => .error (.incomplete start)
          | b2 :: rest =>
            let n2 := b2.toNat
            if IsContinuation n2 then
              match rest with
              | [] => .error (.incomplete start)
              | b3 :: rest =>
                let n3 := b3.toNat
                if IsContinuation n3 then do
                  let cs ← decodeFrom (start + 4) rest
                  return Char.ofNat ((n0 - 0xF0) * 262144 + (n1 - 0x80) * 4096 + (n2 - 0x80) * 64
                    + (n3 - 0x80)) :: cs
                else .error (.invalid 3 start)
            else .error (.invalid 2 start)
        else .error (.invalid 1 start)
    else .error (.invalid 1 start)

/-- The text that the bytes are the UTF-8 form of. -/
def decode (bytes : Bytes) : Except Error String := do
  let cs ← decodeFrom 0 bytes
  return String.ofList cs

end Utf8

end TokenLedger
