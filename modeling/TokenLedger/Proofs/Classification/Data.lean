import TokenLedger.Classification
import TokenLedger.Proofs.Classification.Outputs

/-!
What classifying a transaction makes of the data that its outputs carry. All that counts is what
data asks for: other data that asks for the same comes out in the record in its place, and nothing
else is different (`classify_mapData`).
-/

namespace TokenLedger

/-! ## Other data in the place of data -/

/-- The output with other data, if it carries any. -/
def RawOutput.mapData (f : Bytes → Bytes) (o : RawOutput) : RawOutput :=
  { o with data? := o.data?.map f }

def RawTx.mapData (f : Bytes → Bytes) (raw : RawTx) : RawTx :=
  { raw with outputs := raw.outputs.map (RawOutput.mapData f) }

/-- The recorded output with other data, if it carries any. -/
def TxOutput.mapData (f : Bytes → Bytes) (o : TxOutput) : TxOutput :=
  { o with data? := o.data?.map f }

def Tx.mapData (f : Bytes → Bytes) (tx : Tx) : Tx :=
  { tx with outputs := tx.outputs.map (TxOutput.mapData f) }

def Allocation.mapData {σ : Type} (f : Bytes → Bytes) (a : Allocation σ) : Allocation σ :=
  { a with outputs := a.outputs.map (TxOutput.mapData f) }

/-- The other data asks for the same as the data in the outputs of a record. -/
def AsksAlike (f : Bytes → Bytes) (outputs : List TxOutput) : Prop :=
  ∀ o ∈ outputs, ∀ data, o.data? = some data → Payload.kindOf? (f data) = Payload.kindOf? data

theorem Tx.ofRaw_mapData (f : Bytes → Bytes) (raw : RawTx) (height : UInt64) :
    Tx.ofRaw (raw.mapData f) height = (Tx.ofRaw raw height).mapData f := by
  have outputs : (Tx.ofRaw (raw.mapData f) height).outputs
      = (Tx.ofRaw raw height).outputs.map (TxOutput.mapData f) := by
    apply List.ext_getElem <;> simp [Tx.ofRaw, RawTx.mapData, RawOutput.mapData, TxOutput.mapData]
  rw [Tx.mapData, ← outputs]
  rfl

theorem AsksAlike.ofRaw {f : Bytes → Bytes} {raw : RawTx}
    (alike : ∀ o ∈ raw.outputs, ∀ data, o.data? = some data →
      Payload.kindOf? (f data) = Payload.kindOf? data) (height : UInt64) :
    AsksAlike f (Tx.ofRaw raw height).outputs := by
  intro o member
  obtain ⟨i, place, rfl⟩ := List.mem_mapIdx.1 member
  exact alike _ (List.getElem_mem place)

/-! ## Going through the outputs -/

theorem governed_congr {data data' : Bytes}
    (alike : Payload.kindOf? data' = Payload.kindOf? data) (isLast : Bool) (kind : TxKind) :
    governed isLast kind data' = governed isLast kind data := by
  rw [governed, governed, alike]

theorem markCandidate_mapData (f : Bytes → Bytes) (outputs : List TxOutput) :
    markCandidate (outputs.map (TxOutput.mapData f))
      = (markCandidate outputs).map (TxOutput.mapData f) := by
  fun_induction markCandidate outputs with
  | case1 first last asks => exact if_pos asks
  | case2 first last asks => exact if_neg asks
  | case3 first rest several ih =>
    cases rest with
    | nil => rfl
    | cons next rest =>
      cases rest with
      | nil => exact (several next rfl).elim
      | cons => exact congrArg (first.mapData f :: ·) ih
  | case4 => rfl

section

variable {σ : Type} [Store σ] {f : Bytes → Bytes}

theorem allocate_mapData {outputs : List TxOutput} (alike : AsksAlike f outputs) (txId : String)
    (height : UInt64) (position : Nat) (kind : TxKind) (balance : Balance) (closed : Bool) (s : σ) :
    allocate txId height position (outputs.map (TxOutput.mapData f)) kind balance closed s
      = (allocate txId height position outputs kind balance closed s).mapData f := by
  induction outputs generalizing position kind balance closed s with
  | nil => rfl
  | cons o rest ih =>
    obtain ⟨index, value, data?, tokenValue, role⟩ := o
    obtain ⟨first, later⟩ := List.forall_mem_cons.1 alike
    cases data? with
    | some data =>
      simp only [List.map_cons, allocate, TxOutput.mapData, Option.map_some, List.isEmpty_map,
        governed_congr (first data rfl)]
      rw [ih later]
      rfl
    | none =>
      simp only [List.map_cons, allocate, TxOutput.mapData, Option.map_none]
      split
      · split
        · rw [ih later]
          rfl
        · rfl
      · rw [ih later]
        rfl

theorem evaluateOutputs_mapData {tx : Tx} (alike : AsksAlike f tx.outputs) (height : UInt64)
    (balance : Balance) (closed : Bool) (s : σ) :
    evaluateOutputs (tx.mapData f) height balance closed s
      = (evaluateOutputs tx height balance closed s).mapData f := by
  have gone := allocate_mapData alike tx.id height 0 tx.kind balance closed s
  simp only [evaluateOutputs, Tx.mapData, gone]
  obtain ⟨ended, outputs, kind, left, closed', s'⟩ :=
    allocate tx.id height 0 tx.outputs tx.kind balance closed s
  cases ended with
  | ok => simp only [Allocation.mapData, markCandidate_mapData]
  | error e => rfl

/-! ## The whole transaction -/

theorem Tx.settled_mapData (f : Bytes → Bytes) (tx : Tx) (left : Balance) :
    (tx.mapData f).settled left = (tx.settled left).mapData f := by
  unfold settled
  split <;> rfl

/-- Whatever the store is and however it fails, other data that asks for the same changes nothing
but the data in the record. -/
theorem classify_mapData {tx : Tx} (alike : AsksAlike f tx.outputs) (height : UInt64) (s : σ) :
    let c := classify height tx s
    classify height (tx.mapData f) s = { c with tx := c.tx.mapData f } := by
  have inputs : evaluateInputs (tx.mapData f) s = evaluateInputs tx s := rfl
  have recognized (values : List (Option UInt64)) :
      (tx.mapData f).recognized values = (tx.recognized values).mapData f := rfl
  simp only [classify, inputs, recognized]
  split
  · rfl
  · rename_i inputs s' _
    split
    · have unaltered : AsksAlike f (tx.recognized inputs.values).outputs := alike
      have gone := evaluateOutputs_mapData unaltered height inputs.balance false s'
      simp only [gone]
      obtain ⟨ended, outputs, kind, left, closed, s''⟩ :=
        evaluateOutputs (tx.recognized inputs.values) height inputs.balance false s'
      cases ended with
      | ok =>
        have settled :=
          Tx.settled_mapData f { tx.recognized inputs.values with outputs, kind } left
        exact congrArg (Classified.mk (.ok true) · s'') settled
      | error e => rfl
    · rfl

end

end TokenLedger
