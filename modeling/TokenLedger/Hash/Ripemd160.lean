import TokenLedger.Bytes.Word

/-!
RIPEMD-160: two lines of eighty steps go over each block in different orders and are added up. The
digest is the five words of state, so it has twenty bytes whatever was hashed.
-/

namespace TokenLedger.Ripemd160

/-- The five words of state. -/
structure State where
  (a b c d e : UInt32)
deriving DecidableEq, Repr

/-- The state before the first block. -/
def State.initial : State := ⟨0x67452301, 0xefcdab89, 0x98badcfe, 0x10325476, 0xc3d2e1f0⟩

/-- One step of a line: which word it takes, and how far it turns. -/
structure Move where
  word : Nat
  turn : UInt32

/-- Sixteen steps with one mixing function and one constant. -/
structure Stage where
  mix : UInt32 → UInt32 → UInt32 → UInt32
  constant : UInt32
  moves : List Move

/-- The five mixing functions. -/
def mix1 (x y z : UInt32) : UInt32 := x ^^^ y ^^^ z
def mix2 (x y z : UInt32) : UInt32 := (x &&& y) ||| (~~~x &&& z)
def mix3 (x y z : UInt32) : UInt32 := (x ||| ~~~y) ^^^ z
def mix4 (x y z : UInt32) : UInt32 := (x &&& z) ||| (y &&& ~~~z)
def mix5 (x y z : UInt32) : UInt32 := x ^^^ (y ||| ~~~z)

/-- The steps that take the listed words and turns. -/
def moves (words : List Nat) (turns : List UInt32) : List Move := List.zipWith Move.mk words turns

/-- The left line. -/
def leftLine : List Stage := [
  ⟨mix1, 0x00000000, moves
    [0, 1, 2, 3, 4, 5, 6, 7, 8, 9, 10, 11, 12, 13, 14, 15]
    [11, 14, 15, 12, 5, 8, 7, 9, 11, 13, 14, 15, 6, 7, 9, 8]⟩,
  ⟨mix2, 0x5a827999, moves
    [7, 4, 13, 1, 10, 6, 15, 3, 12, 0, 9, 5, 2, 14, 11, 8]
    [7, 6, 8, 13, 11, 9, 7, 15, 7, 12, 15, 9, 11, 7, 13, 12]⟩,
  ⟨mix3, 0x6ed9eba1, moves
    [3, 10, 14, 4, 9, 15, 8, 1, 2, 7, 0, 6, 13, 11, 5, 12]
    [11, 13, 6, 7, 14, 9, 13, 15, 14, 8, 13, 6, 5, 12, 7, 5]⟩,
  ⟨mix4, 0x8f1bbcdc, moves
    [1, 9, 11, 10, 0, 8, 12, 4, 13, 3, 7, 15, 14, 5, 6, 2]
    [11, 12, 14, 15, 14, 15, 9, 8, 9, 14, 5, 6, 8, 6, 5, 12]⟩,
  ⟨mix5, 0xa953fd4e, moves
    [4, 0, 5, 9, 7, 12, 2, 10, 14, 1, 3, 8, 11, 6, 15, 13]
    [9, 15, 5, 11, 6, 8, 13, 12, 5, 12, 13, 14, 11, 8, 5, 6]⟩]

/-- The right line. -/
def rightLine : List Stage := [
  ⟨mix5, 0x50a28be6, moves
    [5, 14, 7, 0, 9, 2, 11, 4, 13, 6, 15, 8, 1, 10, 3, 12]
    [8, 9, 9, 11, 13, 15, 15, 5, 7, 7, 8, 11, 14, 14, 12, 6]⟩,
  ⟨mix4, 0x5c4dd124, moves
    [6, 11, 3, 7, 0, 13, 5, 10, 14, 15, 8, 12, 4, 9, 1, 2]
    [9, 13, 15, 7, 12, 8, 9, 11, 7, 7, 12, 7, 6, 15, 13, 11]⟩,
  ⟨mix3, 0x6d703ef3, moves
    [15, 5, 1, 3, 7, 14, 6, 9, 11, 8, 12, 2, 10, 0, 4, 13]
    [9, 7, 15, 11, 8, 6, 6, 14, 12, 13, 5, 14, 13, 13, 7, 5]⟩,
  ⟨mix2, 0x7a6d76e9, moves
    [8, 6, 4, 1, 3, 11, 15, 0, 5, 12, 2, 13, 9, 7, 10, 14]
    [15, 5, 8, 11, 14, 14, 6, 14, 6, 9, 12, 9, 12, 5, 15, 8]⟩,
  ⟨mix1, 0x00000000, moves
    [12, 15, 10, 4, 1, 5, 8, 7, 6, 2, 13, 14, 0, 3, 9, 11]
    [8, 5, 12, 9, 12, 5, 14, 6, 8, 13, 6, 5, 15, 13, 11, 11]⟩]

/-- A word turned left by fewer places than it has. -/
def rotateLeft (x n : UInt32) : UInt32 := (x <<< n) ||| (x >>> (32 - n))

/-- One step over a block. -/
def step (block : List UInt32) (stage : Stage) (s : State) (m : Move) : State :=
  let sum := s.a + stage.mix s.b s.c s.d + block.getD m.word 0 + stage.constant
  ⟨s.e, rotateLeft sum m.turn + s.e, s.b, rotateLeft s.c 10, s.d⟩

/-- A whole line over a block. -/
def follow (block : List UInt32) (line : List Stage) (s : State) : State :=
  line.foldl (fun s stage => stage.moves.foldl (step block stage) s) s

/-- The state after a block. -/
def absorb (s : State) (block : List UInt32) : State :=
  let l := follow block leftLine s
  let r := follow block rightLine s
  ⟨s.b + l.c + r.d, s.c + l.d + r.e, s.d + l.e + r.a, s.e + l.a + r.b, s.a + l.b + r.c⟩

/-- The bytes with a one bit, zeros and their count of bits, filling whole blocks. -/
def padded (bytes : Bytes) : Bytes :=
  let zeros := (119 - bytes.length % 64) % 64
  bytes ++ 0x80 :: List.replicate zeros 0 ++ Word.littleEndian 8 (bytes.length * 8)

/-- The first `count` words of bytes, least significant byte first. -/
def words : (count : Nat) → Bytes → List UInt32
  | 0, _ => []
  | count + 1, bytes =>
    UInt32.ofNat (Word.ofLittleEndian (bytes.take 4)) :: words count (bytes.drop 4)

/-- The state after the first `count` blocks. -/
def absorbBlocks : (count : Nat) → Bytes → State → State
  | 0, _, s => s
  | count + 1, bytes, s => absorbBlocks count (bytes.drop 64) (absorb s (words 16 bytes))

/-- The state as bytes. -/
def State.bytes (s : State) : Bytes :=
  [s.a, s.b, s.c, s.d, s.e].flatMap fun w => Word.littleEndian 4 w.toNat

/-- The digest of bytes. -/
def digest (bytes : Bytes) : Bytes :=
  let input := padded bytes
  (absorbBlocks (input.length / 64) input State.initial).bytes

/-- A digest has twenty bytes. -/
@[simp] theorem length_digest (bytes : Bytes) : (digest bytes).length = 20 := by
  simp [digest, State.bytes]

end TokenLedger.Ripemd160
