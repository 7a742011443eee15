import TokenLedger.Proofs.Wire.RoundTrip

/-!
What is stored and what travels between nodes, each behind its version. It is read back whatever
follows it, nothing less than the whole is read at all, and where another version is supported it is
refused for its version alone (`reads_back_whole_in_its_version`).
-/

namespace TokenLedger

open Wire Wire.Codec

/-! ## What can be written

Words count every list and text, and every reference has a well-formed id. -/

structure OutputRef.Writable (r : OutputRef) : Prop where
  formed : WellFormedId r.txId
  counted : TextCounted r.text

structure Tx.Writable (t : Tx) : Prop where
  id : TextCounted t.id
  inputsCounted : t.inputs.length < UInt64.size
  inputs : ∀ i ∈ t.inputs, i.ref.Writable
  outputsCounted : t.outputs.length < UInt64.size
  outputs : ∀ o ∈ t.outputs, DataCounted o

structure Block.Writable (b : Block) : Prop where
  hash : TextCounted b.hash
  previousHash : TextCounted b.previousHash
  txsCounted : b.txs.length < UInt64.size
  txs : ∀ t ∈ b.txs, t.Writable

structure Sync.Response.Writable (r : Sync.Response) : Prop where
  blocksCounted : r.blocks.length < UInt64.size
  blocks : ∀ b ∈ r.blocks, b.Writable

def Sync.Message.Writable : Sync.Message → Prop
  | .request _ => True
  | .response r => r.Writable

namespace Wire.Spelling

theorem counted_list_spell {α : Type} {c : Codec α} (s : Spelling c)
    (nonempty : s.codec.Nonempty) {as : List α} (few : as.length < UInt64.size)
    (counted : ∀ a ∈ as, s.Counted (s.spell a)) :
    (s.list nonempty).Counted ((s.list nonempty).spell as) := by
  show (as.map s.spell).length < UInt64.size ∧ ∀ l ∈ as.map s.spell, s.Counted l
  rw [List.length_map, List.forall_mem_map]
  exact ⟨few, counted⟩

theorem counted_tx_spell {t : Tx} (writable : t.Writable) : tx.Counted (tx.spell t) := by
  have inputs := txInput.counted_list_spell txInput_nonempty writable.inputsCounted
    fun i member => And.intro (writable.inputs i member).counted fun _ _ => trivial
  have outputs := (ofExact txOutput_exact fun _ => dataCounted_of_length).counted_list_spell
    txOutput_nonempty writable.outputsCounted writable.outputs
  exact ⟨writable.id, trivial, inputs, outputs, trivial, trivial⟩

theorem counted_block_spell {b : Block} (writable : b.Writable) :
    block.Counted (block.spell b) := by
  have txs := tx.counted_list_spell tx_nonempty writable.txsCounted
    fun t member => counted_tx_spell (writable.txs t member)
  exact ⟨trivial, writable.hash, writable.previousHash, txs⟩

theorem counted_response_spell {r : Sync.Response} (writable : r.Writable) :
    response.Counted (response.spell r) := by
  have blocks := block.counted_list_spell block_nonempty writable.blocksCounted
    fun b member => counted_block_spell (writable.blocks b member)
  exact ⟨blocks, trivial⟩

end Wire.Spelling

namespace Wire

/-- What has a format of its own. -/
inductive Format where
  | reference
  | tx
  | block
  | utxo
  | message

namespace Format

def Value : Format → Type
  | reference => OutputRef
  | tx => Tx
  | block => Block
  | utxo => Utxo
  | message => Sync.Message

def codec : (f : Format) → Codec f.Value
  | reference => Codec.reference
  | tx => Codec.tx
  | block => Codec.block
  | utxo => Codec.utxo
  | message => Codec.message

/-- Whether words count all that is written, and every reference in it can be read. -/
def Writable : (f : Format) → f.Value → Prop
  | reference => OutputRef.Writable
  | tx => Tx.Writable
  | block => Block.Writable
  | utxo => fun _ => True
  | message => Sync.Message.Writable

def spelling : (f : Format) → Spelling f.codec
  | reference => Spelling.reference
  | tx => Spelling.tx
  | block => Spelling.block
  | utxo => Spelling.utxo
  | message => Spelling.message

theorem counted_spell {f : Format} {x : f.Value} (writable : f.Writable x) :
    f.spelling.Counted (f.spelling.spell x) := by
  cases f with
  | reference => exact writable.counted
  | tx => exact Spelling.counted_tx_spell writable
  | block => exact Spelling.counted_block_spell writable
  | utxo => trivial
  | message =>
    cases x with
    | request r => exact ⟨trivial, trivial⟩
    | response r => exact Spelling.counted_response_spell writable

theorem standsFor_spell {f : Format} {x : f.Value} (writable : f.Writable x) :
    f.spelling.StandsFor (f.spelling.spell x) x := by
  have refs : ∀ {t : Tx}, t.Writable → RefsFormed t :=
    fun writable i member => (writable.inputs i member).formed
  cases f with
  | reference => exact OutputRef.parse_text writable.formed
  | tx => exact Spelling.tx_standsFor x (refs writable)
  | block => exact Spelling.block_standsFor x fun t member => refs (writable.txs t member)
  | utxo => rfl
  | message =>
    cases x with
    | request r => exact Spelling.message_standsFor_request r
    | response r =>
      exact Spelling.message_standsFor_response r fun b member t member' =>
        refs ((writable.blocks b member).txs t member')

end Format

/-- Nothing less than the whole is read: a part is too short for a version or for the value. -/
theorem Spelling.decodeVersioned_prefix {α : Type} {c : Codec α} (s : Spelling c) {l : s.Spelled}
    (counted : s.Counted l) (version : UInt32) {front : Bytes}
    (part : front <+: encodeVersioned s.codec version l)
    (less : front ≠ encodeVersioned s.codec version l) :
    if front.length < headerSize then
      decodeVersioned c version front = .error (.truncated front.length)
    else ∃ e, decodeVersioned c version front = .error (.codec e) := by
  rcases short_or_prefix part with short | ⟨enough, front', rfl, part'⟩
  · rw [if_pos short]
    exact decodeVersioned_of_short short
  · rw [if_neg (Nat.not_lt.2 enough)]
    have less' : front' ≠ s.codec.encode l := fun same => less (by rw [same, encodeVersioned])
    obtain ⟨e, unread⟩ := s.decode_prefix_error counted part' less'
    exact ⟨e, decodeVersioned_of_error unread⟩

/-- What is written behind a version reads back whatever follows; of less nothing is read; and another
version is refused whatever is behind it. -/
theorem reads_back_whole_in_its_version (f : Format) (x : f.Value) (writable : f.Writable x)
    (version : UInt32) :
    (∀ more, decodeVersioned f.codec version (encodeVersioned f.codec version x ++ more) = .ok x)
    ∧ (∀ front, front <+: encodeVersioned f.codec version x →
        front ≠ encodeVersioned f.codec version x →
        if front.length < headerSize then
          decodeVersioned f.codec version front = .error (.truncated front.length)
        else ∃ e, decodeVersioned f.codec version front = .error (.codec e))
    ∧ ∀ supported, supported ≠ version →
        (∀ more, decodeVersioned f.codec supported (encodeVersioned f.codec version x ++ more)
          = .error (.unsupportedVersion version supported))
        ∧ ∀ body, decodeVersioned f.codec supported (word32.encode version ++ body)
          = .error (.unsupportedVersion version supported) := by
  have counted := Format.counted_spell writable
  have standsFor := Format.standsFor_spell writable
  have form : encodeVersioned f.spelling.codec version (f.spelling.spell x)
      = encodeVersioned f.codec version x := by
    rw [encodeVersioned, f.spelling.encode_spell, encodeVersioned]
  refine ⟨?_, ?_, ?_⟩
  · intro more
    rw [encodeVersioned, List.append_assoc]
    exact decodeVersioned_of_ok (f.spelling.decode_spell counted standsFor more)
  · intro front part less
    rw [← form] at part less
    exact f.spelling.decodeVersioned_prefix counted version part less
  · intro supported other
    refine ⟨fun more => ?_, fun body => decodeVersioned_of_ne other.symm⟩
    rw [encodeVersioned, List.append_assoc]
    exact decodeVersioned_of_ne other.symm

/-- A response with a negative number, optional fields with and without content, and text beyond the
first characters. -/
theorem reads_back_whole_response :
    let tx : Tx := ⟨"gén", 10, [⟨⟨"a", 7⟩, some 3⟩, ⟨⟨"b", 0⟩, none⟩],
      [⟨0, 5, some [1, 2], 5, .token⟩, ⟨1, 0, none, 0, .native⟩], .vote, 1⟩
    let sent : Sync.Message := .response ⟨[⟨10, "h10", "h9", [tx]⟩], -3⟩
    let bytes := encodeVersioned Codec.message 1 sent
    (∀ more, decodeVersioned Codec.message 1 (bytes ++ more) = .ok sent)
      ∧ decodeVersioned Codec.message 1 (bytes.take 3) = .error (.truncated 3)
      ∧ (∃ e, decodeVersioned Codec.message 1 (bytes.take 196) = .error (.codec e))
      ∧ ∀ more, decodeVersioned Codec.message 2 (bytes ++ more)
        = .error (.unsupportedVersion 1 2) := by
  intro tx sent bytes
  have inputs : ∀ i ∈ tx.inputs, i.ref.Writable := by
    have each : ∀ i ∈ tx.inputs, WellFormedId i.ref.txId ∧ TextCounted i.ref.text := by
      decide +kernel
    exact fun i member => ⟨(each i member).1, (each i member).2⟩
  have outputs : ∀ o ∈ tx.outputs, DataCounted o := by
    refine List.forall_mem_cons.2 ⟨?_, List.forall_mem_singleton.2 nofun⟩
    intro data same
    exact Option.some.inj same ▸ by decide
  have writable : tx.Writable := ⟨by decide +kernel, by decide, inputs, by decide, outputs⟩
  have block : Block.Writable ⟨10, "h10", "h9", [tx]⟩ :=
    ⟨by decide +kernel, by decide +kernel, by decide, List.forall_mem_singleton.2 writable⟩
  have blocks : Sync.Response.Writable ⟨[⟨10, "h10", "h9", [tx]⟩], -3⟩ :=
    ⟨by decide, List.forall_mem_singleton.2 block⟩
  obtain ⟨read, less, other⟩ := reads_back_whole_in_its_version .message sent blocks 1
  have length : bytes.length = 197 := by decide +kernel
  have cut : ∀ n < 197, (bytes.take n).length = n := by
    intro n short
    rw [List.length_take, length]
    exact Nat.min_eq_left (Nat.le_of_lt short)
  have strict : ∀ n < 197, bytes.take n ≠ bytes := by
    intro n short same
    exact absurd ((cut n short).symm.trans ((congrArg List.length same).trans length)) (by omega)
  have three := less (bytes.take 3) (List.take_prefix 3 bytes) (strict 3 (by decide))
  have most := less (bytes.take 196) (List.take_prefix 196 bytes) (strict 196 (by decide))
  rw [cut 3 (by decide)] at three
  rw [cut 196 (by decide)] at most
  exact ⟨read, three, most, (other 2 (by decide)).1⟩

end Wire

end TokenLedger
