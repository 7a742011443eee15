import TokenLedger.Hash.Content

/-!
Governance payloads: twenty-two bytes that an output can carry in place of value. The first byte
says what is asked for, the second in which version, and the rest stands for the content. A payload
is written to a sink, which may have too little room; the one that it is made in grows, so there is
one for every content (`tryEncode_eq`), and it reads back as what was written (`decode?_encode`).
-/

namespace TokenLedger

/-- What a payload can ask for. -/
inductive GovernanceKind where
  | compensationRequest
  | vote
deriving DecidableEq, Repr

/-- A payload taken apart. -/
structure Payload where
  tag : UInt8
  version : UInt8
  hash : Bytes
deriving DecidableEq, Repr

/-- Why a payload could not be written. -/
inductive PayloadError where
  | malformed (expected actual : Nat)
  | notWritten (cause : String)
deriving DecidableEq, Repr

/-- The wording of an error. -/
def PayloadError.message : PayloadError → String
  | .malformed expected actual =>
    s!"Malformed OP_RETURN payload: expected {expected} bytes, got {actual}"
  | .notWritten cause => s!"OP_RETURN write failed: {cause}"

/-- Where bytes are written. A sink grows, unless its room is given. -/
structure Sink where
  written : Bytes := []
  room? : Option Nat := none
deriving DecidableEq, Repr

namespace Sink

/-- Whether so many more bytes can be written. -/
def HasRoom (s : Sink) (n : Nat) : Prop := ∀ room ∈ s.room?, n ≤ room

instance (s : Sink) (n : Nat) : Decidable (s.HasRoom n) :=
  inferInstanceAs (Decidable (∀ room ∈ s.room?, n ≤ room))

/-- The sink with more bytes in it. -/
def after (s : Sink) (bytes : Bytes) : Sink where
  written := s.written ++ bytes
  room? := s.room?.map (· - bytes.length)

/-- Writes bytes, if there is room for all of them. -/
def write (s : Sink) (bytes : Bytes) : Except PayloadError Sink :=
  if s.HasRoom bytes.length then .ok (s.after bytes)
  else .error (.notWritten "failed to write whole buffer")

/-- Writing bytes in two parts is writing them at once. -/
theorem write_append (s : Sink) (first rest : Bytes) :
    (do (← s.write first).write rest) = s.write (first ++ rest) := by
  obtain ⟨written, room?⟩ := s
  cases room? with
  | none => simp [write, after, HasRoom, bind, Except.bind]
  | some room =>
    by_cases fits : first.length ≤ room
    · have left : rest.length ≤ room - first.length ↔ first.length + rest.length ≤ room := by omega
      simp [write, after, HasRoom, bind, Except.bind, fits, left, Nat.sub_add_eq]
    · have large : ¬ first.length + rest.length ≤ room := by omega
      simp [write, HasRoom, bind, Except.bind, fits, large]

end Sink

namespace Payload

/-- How long a payload is: tag, version and twenty bytes for the content. -/
def size : Nat := 22

/-- The tag of a compensation request. -/
def compensationRequestTag : UInt8 := 1

/-- The tag of a vote. -/
def voteTag : UInt8 := 2

/-- The version in which both are written. -/
def currentVersion : UInt8 := 1

/-- What a payload asks for, if its tag and version are known. -/
def kind? (p : Payload) : Option GovernanceKind :=
  if p.version ≠ currentVersion then none
  else if p.tag = compensationRequestTag then some .compensationRequest
  else if p.tag = voteTag then some .vote
  else none

/-- Writes a payload for a content to a sink. -/
def write (tag version : UInt8) (content : Bytes) (s : Sink) : Except PayloadError Sink := do
  (← s.write [tag, version]).write (Hash.content content)

/-- The bytes of a payload for a content, checked for their length. -/
def tryEncode (tag version : UInt8) (content : Bytes) : Except PayloadError Bytes := do
  let bytes := (← write tag version content {}).written
  if bytes.length = size then .ok bytes else .error (.malformed size bytes.length)

/-- The bytes of a payload for a content. A fault would give no bytes at all, which every node reads
as the absence of a payload. -/
def encode (tag version : UInt8) (content : Bytes) : Bytes :=
  match tryEncode tag version content with
  | .ok bytes => bytes
  | .error _ => []

/-- The bytes of a compensation request for a content. -/
def encodeRequest (content : Bytes) : Bytes :=
  encode compensationRequestTag currentVersion content

/-- Takes a payload apart; bytes of any other length are no payload. -/
def decode? (bytes : Bytes) : Option Payload :=
  match bytes with
  | tag :: version :: hash => if bytes.length = size then some ⟨tag, version, hash⟩ else none
  | _ => none

/-- What bytes ask for, if they are a payload of a known kind. -/
def kindOf? (bytes : Bytes) : Option GovernanceKind := (decode? bytes).bind kind?

section

variable (tag version : UInt8) (content : Bytes)

/-- A payload is written exactly where there is room for the whole of it. -/
theorem write_eq (s : Sink) :
    write tag version content s
      = if s.HasRoom size then .ok (s.after (tag :: version :: Hash.content content))
        else .error (.notWritten "failed to write whole buffer") := by
  have long : ([tag, version] ++ Hash.content content).length = size := by simp [size]
  rw [write, Sink.write_append, Sink.write, long]
  rfl

/-- No fault arises: the sink grows, and the digest has the same length for every content. -/
theorem tryEncode_eq :
    tryEncode tag version content = .ok (tag :: version :: Hash.content content) := by
  have room : ({} : Sink).HasRoom size := nofun
  have long : (tag :: version :: Hash.content content).length = size := by simp [size]
  rw [tryEncode, write_eq, if_pos room]
  simp only [bind, Except.bind, Sink.after, List.nil_append, long, if_true]

/-- Writing never falls back on the absence of a payload. -/
theorem encode_eq : encode tag version content = tag :: version :: Hash.content content := by
  rw [encode, tryEncode_eq]

/-- A payload reads back as what was written. -/
theorem decode?_encode :
    decode? (encode tag version content) = some ⟨tag, version, Hash.content content⟩ := by
  have long : (tag :: version :: Hash.content content).length = size := by simp [size]
  simp only [encode_eq, decode?, long, if_true]

/-- Whatever the content is, a payload asks for what its tag and version say. -/
theorem kindOf?_encode :
    kindOf? (encode tag version content)
      = if tag = compensationRequestTag ∧ version = currentVersion then some .compensationRequest
        else if tag = voteTag ∧ version = currentVersion then some .vote
        else none := by
  rw [kindOf?, decode?_encode, Option.bind_some, kind?]
  by_cases current : version = currentVersion <;> simp [current]

end

end Payload

end TokenLedger
