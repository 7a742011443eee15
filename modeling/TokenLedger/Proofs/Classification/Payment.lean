import TokenLedger.Proofs.Classification

/-!
Which outputs a balance pays, and what is left of it. The outputs that can be spent are paid in order
for as long as they bear value and their sum is within the balance: those that are paid are the
longest list of that kind that the spendable outputs begin with, whatever data lies between them
(`Assigns.longest`). The rest of the balance is burnt, and the ledger gains an entry for each output
that was paid in the place of the entries that were spent (`pays_in_order`).
-/

namespace TokenLedger

/-- The longest of the lists that another begins with and that have a property. -/
structure IsLongestPrefix {α : Type} (P : List α → Prop) (xs whole : List α) : Prop where
  front : xs <+: whole
  holds : P xs
  longest : ∀ ys, ys <+: whole → P ys → ys <+: xs

/-- The values of outputs. -/
def values (outputs : List (RawOutput × Nat)) : List UInt64 := outputs.map fun e => e.1.value

/-- Outputs that all bear value, and together no more than a balance. -/
def Affordable (balance : Nat) (outputs : List (RawOutput × Nat)) : Prop :=
  (∀ e ∈ outputs, 0 < e.1.value.toNat) ∧ Amount.total (values outputs) ≤ balance

/-- The outputs without data, each with its position. -/
def spendableFrom (position : Nat) (outputs : List RawOutput) : List (RawOutput × Nat) :=
  (outputs.zipIdx position).filter fun e => e.1.data?.isNone

/-- The outputs on the chain behind the token outputs of a record, each with its position. -/
def tokensFrom (position : Nat) (outputs : List TxOutput) : List (RawOutput × Nat) :=
  ((outputs.zipIdx position).filter fun e => e.1.role = .token).map fun e => (e.1.toRaw, e.2)

def RawTx.spendable (raw : RawTx) : List (RawOutput × Nat) := spendableFrom 0 raw.outputs

def Tx.tokens (tx : Tx) : List (RawOutput × Nat) := tokensFrom 0 tx.outputs

/-- The balance after paying values one after the other, each of them taken off by a subtraction that
is checked. -/
def Balance.payAll (b : Balance) : List UInt64 → Except Overflow Balance
  | [] => .ok b
  | v :: rest => do (← b.subtract v.toNat).payAll rest

/-! ## Longest lists -/

namespace IsLongestPrefix

variable {α : Type} {P Q : List α → Prop} {x : α} {xs whole : List α}

theorem nil (holds : P []) : IsLongestPrefix P [] [] where
  front := List.nil_prefix
  holds := holds
  longest := fun _ front _ => front

/-- One more member in front. -/
theorem cons (step : ∀ ys, P (x :: ys) ↔ Q ys) (later : IsLongestPrefix Q xs whole) :
    IsLongestPrefix P (x :: xs) (x :: whole) where
  front := List.cons_prefix_cons.2 ⟨rfl, later.front⟩
  holds := (step xs).2 later.holds
  longest := by
    intro ys front good
    cases ys with
    | nil => exact List.nil_prefix
    | cons y ys =>
      obtain ⟨rfl, shorter⟩ := List.cons_prefix_cons.1 front
      exact List.cons_prefix_cons.2 ⟨rfl, later.longest ys shorter ((step ys).1 good)⟩

/-- No list that begins with the first member has the property. -/
theorem stop (holds : P []) (bad : ∀ ys, ¬ P (x :: ys)) : IsLongestPrefix P [] (x :: whole) where
  front := List.nil_prefix
  holds := holds
  longest := by
    intro ys front good
    cases ys with
    | nil => exact List.nil_prefix
    | cons y ys =>
      obtain ⟨rfl, -⟩ := List.cons_prefix_cons.1 front
      exact absurd good (bad ys)

end IsLongestPrefix

theorem affordable_nil (balance : Nat) : Affordable balance [] := by
  simp [Affordable, values]

theorem affordable_cons_iff {balance : Nat} {e : RawOutput × Nat} {rest : List (RawOutput × Nat)} :
    Affordable balance (e :: rest)
      ↔ (0 < e.1.value.toNat ∧ e.1.value.toNat ≤ balance)
        ∧ Affordable (balance - e.1.value.toNat) rest := by
  simp only [Affordable, values, List.forall_mem_cons, List.map_cons, Amount.total_cons]
  constructor
  · rintro ⟨⟨first, later⟩, sum⟩
    exact ⟨⟨first, by omega⟩, later, by omega⟩
  · rintro ⟨⟨first, enough⟩, later, sum⟩
    exact ⟨⟨first, later⟩, by omega⟩

theorem Balance.covers_iff {b : Balance} {value : UInt64} :
    b.Covers value ↔ 0 < value.toNat ∧ value.toNat ≤ b.value.toNat := by
  unfold Covers
  omega

theorem Balance.toNat_pay {b : Balance} {value : UInt64} (covered : b.Covers value) :
    (b.pay value covered).value.toNat = b.value.toNat - value.toNat := by
  obtain ⟨_, enough⟩ := covered
  simp only [pay]
  omega

/-! ## Outputs with their positions -/

theorem spendableFrom_cons_data {o : RawOutput} {data : Bytes} (carried : o.data? = some data)
    (position : Nat) (rest : List RawOutput) :
    spendableFrom position (o :: rest) = spendableFrom (position + 1) rest := by
  simp [spendableFrom, carried]

theorem spendableFrom_cons_none {o : RawOutput} (noData : o.data? = none) (position : Nat)
    (rest : List RawOutput) :
    spendableFrom position (o :: rest) = (o, position) :: spendableFrom (position + 1) rest := by
  simp [spendableFrom, noData]

theorem tokensFrom_cons_token {o : TxOutput} (token : o.role = .token) (position : Nat)
    (rest : List TxOutput) :
    tokensFrom position (o :: rest) = (o.toRaw, position) :: tokensFrom (position + 1) rest := by
  simp [tokensFrom, token]

theorem tokensFrom_cons_other {o : TxOutput} (other : o.role ≠ .token) (position : Nat)
    (rest : List TxOutput) :
    tokensFrom position (o :: rest) = tokensFrom (position + 1) rest := by
  simp [tokensFrom, other]

theorem tokensFrom_cons_native (position : Nat) (o : TxOutput) (rest : List TxOutput) :
    tokensFrom position ({ o with role := .native } :: rest) = tokensFrom (position + 1) rest :=
  @tokensFrom_cons_other { o with role := .native } nofun position rest

theorem mem_tokens_iff {tx : Tx} {e : RawOutput × Nat} :
    e ∈ tx.tokens ↔ ∃ o, tx.outputs[e.2]? = some o ∧ o.role = .token ∧ o.toRaw = e.1 := by
  unfold Tx.tokens tokensFrom
  rw [List.mem_map]
  constructor
  · rintro ⟨⟨o, i⟩, member, rfl⟩
    obtain ⟨listed, token⟩ := List.mem_filter.1 member
    exact ⟨o, List.mem_zipIdx_iff_getElem?.1 listed, of_decide_eq_true token, rfl⟩
  · rintro ⟨o, listed, token, same⟩
    refine ⟨(o, e.2), List.mem_filter.2 ⟨?_, decide_eq_true token⟩, Prod.ext same rfl⟩
    exact List.mem_zipIdx_iff_getElem?.2 listed

theorem tokensFrom_markCandidate (position : Nat) (outputs : List TxOutput) :
    tokensFrom position (markCandidate outputs) = tokensFrom position outputs := by
  refine view_markCandidate (fun position o o' rest other other' => ?_)
    (fun position o rest rest' same => ?_) position outputs
  · rw [tokensFrom_cons_other other, tokensFrom_cons_other other']
  · by_cases token : o.role = .token
    · rw [tokensFrom_cons_token token, tokensFrom_cons_token token, same]
    · rw [tokensFrom_cons_other token, tokensFrom_cons_other token, same]

/-! ## Going through the outputs -/

/-- What becomes of outputs, of the kind of their transaction and of the balance when they are gone
through to the end, whatever ledger takes the entries. -/
inductive Assigns : List TxOutput → TxKind → Balance → (closed : Bool) →
    List TxOutput → TxKind → Balance → Prop where
  | done (kind : TxKind) (balance : Balance) (closed : Bool) :
    Assigns [] kind balance closed [] kind balance
  | data {o : TxOutput} {rest outputs : List TxOutput} {data : Bytes} {kind kind' : TxKind}
    {balance left : Balance} {closed : Bool} (carried : o.data? = some data)
    (later : Assigns rest (governed rest.isEmpty kind data).1 balance closed outputs kind' left) :
    Assigns (o :: rest) kind balance closed
      ({ o with tokenValue := 0, role := (governed rest.isEmpty kind data).2 } :: outputs) kind' left
  | paid {o : TxOutput} {rest outputs : List TxOutput} {kind kind' : TxKind}
    {balance left : Balance} (noData : o.data? = none) (covered : balance.Covers o.value)
    (later : Assigns rest kind (balance.pay o.value covered) false outputs kind' left) :
    Assigns (o :: rest) kind balance false
      ({ o with tokenValue := o.value, role := .token } :: outputs) kind' left
  | native {o : TxOutput} {rest outputs : List TxOutput} {kind kind' : TxKind}
    {balance left : Balance} {closed : Bool} (noData : o.data? = none)
    (shut : ¬ (closed = false ∧ balance.Covers o.value))
    (later : Assigns rest kind balance true outputs kind' left) :
    Assigns (o :: rest) kind balance closed ({ o with role := .native } :: outputs) kind' left

theorem assigns_allocate {σ : Type} [Store σ] {txId : String} {height : UInt64} {position : Nat}
    {outputs : List TxOutput} {kind : TxKind} {balance : Balance} {closed : Bool} {s : σ} :
    let a := allocate txId height position outputs kind balance closed s
    a.ended = .ok () → Assigns outputs kind balance closed a.outputs a.kind a.balance := by
  induction outputs generalizing position kind balance closed s with
  | nil => exact fun _ => .done kind balance closed
  | cons o rest ih =>
    obtain ⟨index, value, data?, tokenValue, role⟩ := o
    cases data? with
    | some data => exact fun ended => .data rfl (ih ended)
    | none =>
      simp only [allocate]
      split
      · rename_i open_covered
        obtain ⟨rfl, covered⟩ := open_covered
        split
        · exact fun ended => .paid rfl covered (ih ended)
        · intro ended
          cases ended
      · rename_i shut
        exact fun ended => .native rfl shut (ih ended)

namespace Assigns

variable {outputs outputs' : List TxOutput} {kind kind' : TxKind} {balance left : Balance}
  {closed : Bool}

/-- Once an output was not paid, none is. -/
theorem of_closed (assigns : Assigns outputs kind balance true outputs' kind' left)
    (position : Nat) : tokensFrom position outputs' = [] ∧ left = balance := by
  generalize shut : true = closed at assigns
  induction assigns generalizing position with
  | done => exact ⟨rfl, rfl⟩
  | data carried later ih =>
    rw [tokensFrom_cons_other (governed_ne_token _ _ _)]
    exact ih _ shut
  | paid => cases shut
  | native noData _ later ih =>
    rw [tokensFrom_cons_native]
    exact ih _ rfl

/-- The outputs that are paid are the longest list of affordable ones that the spendable outputs
begin with. -/
theorem longest (assigns : Assigns outputs kind balance false outputs' kind' left)
    (position : Nat) :
    IsLongestPrefix (Affordable balance.value.toNat) (tokensFrom position outputs')
      (spendableFrom position (outputs.map TxOutput.toRaw)) := by
  generalize unshut : false = closed at assigns
  induction assigns generalizing position with
  | done => exact .nil (affordable_nil _)
  | @data o rest _ _ _ _ _ _ _ carried later ih =>
    rw [tokensFrom_cons_other (governed_ne_token _ _ _), List.map_cons,
      spendableFrom_cons_data (show o.toRaw.data? = _ from carried)]
    exact ih _ unshut
  | @paid o rest _ _ _ _ _ noData covered later ih =>
    rw [tokensFrom_cons_token rfl, List.map_cons,
      spendableFrom_cons_none (show o.toRaw.data? = _ from noData)]
    refine (ih (position + 1) rfl).cons fun ys => ?_
    rw [Balance.toNat_pay, affordable_cons_iff]
    exact and_iff_right (Balance.covers_iff.1 covered)
  | @native o rest _ _ _ _ _ _ noData shut later ih =>
    subst unshut
    obtain ⟨none, -⟩ := later.of_closed (position + 1)
    rw [tokensFrom_cons_native, none, List.map_cons,
      spendableFrom_cons_none (show o.toRaw.data? = _ from noData)]
    refine .stop (affordable_nil _) fun ys good => shut ⟨rfl, ?_⟩
    exact Balance.covers_iff.2 (affordable_cons_iff.1 good).1

/-- Paying never leaves the word. -/
theorem payAll_eq (assigns : Assigns outputs kind balance closed outputs' kind' left)
    (position : Nat) : balance.payAll (values (tokensFrom position outputs')) = .ok left := by
  induction assigns generalizing position with
  | done => rfl
  | data carried later ih =>
    rw [tokensFrom_cons_other (governed_ne_token _ _ _)]
    exact ih _
  | @paid o _ _ _ _ balance _ _ covered later ih =>
    rw [tokensFrom_cons_token rfl]
    change (balance.subtract o.value.toNat >>= fun b => b.payAll _) = _
    rw [Balance.subtract_eq_ok_pay covered]
    exact ih _
  | native noData shut later ih =>
    rw [tokensFrom_cons_native]
    exact ih _

/-- Each output that is paid is assigned its value, and the others nothing. -/
theorem tokenValue_eq (assigns : Assigns outputs kind balance closed outputs' kind' left)
    (fresh : ∀ o ∈ outputs, o.tokenValue = 0) :
    ∀ o ∈ outputs', o.tokenValue = if o.role = .token then o.value else 0 := by
  induction assigns with
  | done => exact nofun
  | data carried later ih =>
    obtain ⟨-, others⟩ := List.forall_mem_cons.1 fresh
    refine List.forall_mem_cons.2 ⟨?_, ih others⟩
    rw [if_neg (governed_ne_token _ _ _)]
  | paid noData covered later ih =>
    obtain ⟨-, others⟩ := List.forall_mem_cons.1 fresh
    exact List.forall_mem_cons.2 ⟨rfl, ih others⟩
  | native noData shut later ih =>
    obtain ⟨first, others⟩ := List.forall_mem_cons.1 fresh
    exact List.forall_mem_cons.2 ⟨first, ih others⟩

end Assigns

/-! ## Token outputs and entries -/

section Tokens

variable {tx : Tx}
  (assigned : ∀ o ∈ tx.outputs, o.tokenValue = if o.role = .token then o.value else 0)

include assigned

theorem Tx.total_tokens : Amount.total (values tx.tokens) = tokenTotal tx.outputs := by
  unfold Tx.tokens
  generalize 0 = position
  generalize tx.outputs = outputs at assigned
  induction outputs generalizing position with
  | nil => rfl
  | cons o rest ih =>
    obtain ⟨first, others⟩ := List.forall_mem_cons.1 assigned
    by_cases token : o.role = .token
    · rw [tokensFrom_cons_token token, tokenTotal_cons_token token, first, if_pos token,
        ← ih (position + 1) others]
      rfl
    · rw [tokensFrom_cons_other token, tokenTotal_cons_other token, ih (position + 1) others]

theorem Tx.mem_entries_of_mem_tokens (height : UInt64) {e : RawOutput × Nat}
    (member : e ∈ tx.tokens) :
    (⟨tx.id, UInt32.ofNat e.2⟩, { value := e.1.value, height, role := .token })
      ∈ tx.entries height := by
  obtain ⟨o, listed, token, same⟩ := mem_tokens_iff.1 member
  have value : o.tokenValue = e.1.value := by
    rw [assigned o (List.mem_of_getElem? listed), if_pos token, ← same]
    rfl
  have made := @mem_entriesFrom tx.id height 0 e.2 tx.outputs o listed token
  rw [Nat.zero_add, value] at made
  rw [Tx.entries_eq]
  exact made

end Tokens

theorem Tx.exists_token_of_mem_entries {tx : Tx} {height : UInt64} {r : OutputRef}
    (made : r ∈ (tx.entries height).map Prod.fst) :
    ∃ e ∈ tx.tokens, r = ⟨tx.id, UInt32.ofNat e.2⟩ := by
  obtain ⟨e, member, rfl⟩ := List.mem_map.1 made
  rw [Tx.entries_eq] at member
  obtain ⟨i, o, listed, token, rfl⟩ := exists_of_mem_entriesFrom member
  rw [Nat.zero_add]
  exact ⟨(o.toRaw, i), mem_tokens_iff.2 ⟨o, listed, token, rfl⟩, rfl⟩

/-- What a balance can pay is no more than its word holds. -/
theorem Affordable.fits {b : Balance} {outputs : List (RawOutput × Nat)}
    (affordable : Affordable b.value.toNat outputs) : ∀ v ∈ values outputs, FitsWord v.toNat := by
  generalize enough : b.value.toNat = balance at affordable
  have bound : balance < 0x8000000000000000 := by
    obtain ⟨_, upper⟩ := b.fits
    omega
  clear enough
  induction outputs generalizing balance with
  | nil => exact nofun
  | cons e rest ih =>
    obtain ⟨⟨_, within⟩, later⟩ := affordable_cons_iff.1 affordable
    have small : e.1.value.toNat < 0x8000000000000000 := by omega
    exact List.forall_mem_cons.2 ⟨fitsWord_natCast_iff.2 small, ih _ later (by omega)⟩

/-! ## The whole transaction -/

/-- The outputs of a transaction whose inputs bring something in, as its record has them. -/
theorem classify_pays {σ : Type} [Store σ] [LawfulStore σ] {s s' : σ} {u : UnspentSet}
    (holds : Holds s u) {raw : RawTx} {height : UInt64} {inputs : InputEvaluation}
    (evaluated : evaluateInputs (Tx.ofRaw raw height) s = (.ok inputs, s'))
    (positive : 0 < inputs.balance.value) :
    let tx := (classify height (Tx.ofRaw raw height) s).tx
    IsLongestPrefix (Affordable inputs.balance.value.toNat) tx.tokens raw.spendable
      ∧ (∀ o ∈ tx.outputs, o.tokenValue = if o.role = .token then o.value else 0)
      ∧ ∃ left, inputs.balance.payAll (values tx.tokens) = .ok left
        ∧ (tx.burntFee.toNat : Int) = left.value := by
  intro tx
  obtain ⟨ended, outputs, -, left, -⟩ := classify_allocates holds evaluated positive
  have assigns := assigns_allocate ended
  generalize allocate _ height 0 _ _ _ _ s' = a at outputs left assigns
  have tokens : tx.tokens = tokensFrom 0 a.outputs := by
    rw [Tx.tokens, outputs, tokensFrom_markCandidate]
  refine ⟨?_, ?_, a.balance, ?_, left⟩
  · have longest := assigns.longest 0
    have unaltered : (Tx.ofRaw raw height).outputs.map TxOutput.toRaw = raw.outputs :=
      congrArg RawTx.outputs (toRaw_ofRaw raw height)
    rw [unaltered, ← tokens] at longest
    exact longest
  · have fresh : ∀ o ∈ (Tx.ofRaw raw height).outputs, o.tokenValue = 0 := by
      intro o member
      obtain ⟨i, _, rfl⟩ := List.mem_mapIdx.1 member
      rfl
    have before := assigns.tokenValue_eq fresh
    intro o member
    rw [outputs] at member
    rcases mem_markCandidate member with same | ⟨o', listed, native, rfl⟩
    · exact before o same
    · have nothing := before o' listed
      rw [native] at nothing
      exact nothing
  · rw [tokens]
    exact assigns.payAll_eq 0

/-- A record is what paying the outputs of a transaction from a balance leads to, and the ledger
afterwards is the one before with what was spent taken out and what was paid put in. -/
structure Tx.PaidFrom (tx : Tx) (raw : RawTx) (height : UInt64) (balance : Balance)
    (before after : UnspentSet) : Prop where
  unaltered : tx.toRaw = raw
  longest : IsLongestPrefix (Affordable balance.value.toNat) tx.tokens raw.spendable
  assigned : ∀ o ∈ tx.outputs, o.tokenValue = if o.role = .token then o.value else 0
  /-- Every value that is paid is one that the word of the balance holds. -/
  fits : ∀ v ∈ values tx.tokens, FitsWord v.toNat
  burnt : ∃ left, balance.payAll (values tx.tokens) = .ok left
    ∧ (tx.burntFee.toNat : Int) = left.value
  sum : (Amount.total (values tx.tokens) + tx.burntFee.toNat : Int) = balance.value
  made : ∀ e ∈ tx.tokens, after.find? ⟨raw.id, UInt32.ofNat e.2⟩
    = some { value := e.1.value, height, role := .token }
  others : ∀ r, (∀ e ∈ tx.tokens, r ≠ ⟨raw.id, UInt32.ofNat e.2⟩) →
    after.find? r = if r ∈ raw.inputs then none else before.find? r

/-- Whatever a set holds: the inputs of a transaction bring in what they are worth there, and if that
is not nothing, the outputs are paid from it in order, and what is left is burnt. -/
theorem pays_in_order (u : UnspentSet) (raw : RawTx) (height : UInt64)
    (few : raw.outputs.length ≤ UInt32.size) {inputs : InputEvaluation}
    (evaluated : (evaluateInputs (Tx.ofRaw raw height) u).1 = .ok inputs)
    (positive : 0 < inputs.balance.value) :
    let c := classify height (Tx.ofRaw raw height) u
    inputs.balance.value = worth u raw.inputs ∧ c.result = .ok true
      ∧ c.tx.PaidFrom raw height inputs.balance u c.store := by
  intro c
  have holds : Holds u u := holds_unspentSet_iff.2 rfl
  generalize gone : evaluateInputs (Tx.ofRaw raw height) u = evaluation at evaluated
  obtain ⟨answer, spent⟩ := evaluation
  obtain rfl : answer = .ok inputs := evaluated
  obtain ⟨-, total, -⟩ := evaluateInputs_eq_ok holds gone
  obtain ⟨kept, follows, performed⟩ := classify_follows holds gone positive
  obtain ⟨-, -, -, -, spentRefs⟩ := classify_allocates holds gone positive
  obtain ⟨longest, assigned, burnt⟩ := classify_pays holds gone positive
  have id_eq : c.tx.id = raw.id := congrArg RawTx.id follows.unaltered
  have changed : c.store = (c.tx.changes height).foldl UnspentSet.apply u := by
    have applied := UnspentSet.applyBatch_eq u (c.tx.changes height)
    exact congrArg Prod.snd (performed.symm.trans applied)
  have places : c.tx.outputs.length ≤ UInt32.size := by
    have same : c.tx.toRaw.outputs.length = raw.outputs.length :=
      congrArg (fun r => r.outputs.length) follows.unaltered
    rw [Tx.toRaw, List.length_map] at same
    rw [same]
    exact few
  refine ⟨total.trans (congrArg _ (worth_eq_foundTotal holds raw.inputs).symm), kept,
    follows.unaltered, longest, assigned, longest.holds.fits, burnt, ?_, ?_, ?_⟩
  · have tokenSum : Amount.total (values c.tx.tokens) = tokenTotal c.tx.outputs :=
      Tx.total_tokens assigned
    have balanced : (c.tx.spentRefs.map u.valueUnder).sum + 0
        = tokenTotal c.tx.outputs + c.tx.burntFee.toNat := follows.balanced
    rw [spentRefs, sum_map_recognizedRefs] at balanced
    change (Amount.total (values c.tx.tokens) + c.tx.burntFee.toNat : Int) = _
    rw [total, tokenSum]
    omega
  · intro e member
    rw [changed, ← id_eq]
    exact Tx.find?_foldl_changes_of_mem u places
      (Tx.mem_entries_of_mem_tokens assigned height member)
  · intro r apart
    have absent : r ∉ (c.tx.entries height).map Prod.fst := by
      intro made
      obtain ⟨e, member, same⟩ := Tx.exists_token_of_mem_entries made
      rw [id_eq] at same
      exact apart e member same
    rw [changed, Tx.find?_foldl_changes_of_notMem u c.tx height absent, spentRefs]
    -- What is listed and not known was not spent, and is not found either way.
    by_cases listed : r ∈ raw.inputs
    · cases known : u.find? r with
      | none => simp
      | some entry => simp [mem_recognizedRefs_iff, listed, known]
    · simp [mem_recognizedRefs_iff, listed]

/-- The value of the first input counts once. Data lies between the outputs that are paid, and the
third of the values is too much for what is left, so the last one is not paid either. -/
theorem pays_first_and_third_output :
    let u : UnspentSet := SortedMap.empty.insert ⟨"a", 0⟩ ⟨100, 5, .token⟩
    let raw : RawTx := ⟨"t", [⟨"a", 0⟩, ⟨"a", 0⟩, ⟨"unknown", 1⟩],
      [⟨60, none⟩, ⟨0, some [1, 2]⟩, ⟨30, none⟩, ⟨20, none⟩, ⟨5, none⟩]⟩
    let c := classify 7 (Tx.ofRaw raw 7) u
    ∃ inputs : InputEvaluation, (evaluateInputs (Tx.ofRaw raw 7) u).1 = .ok inputs
      ∧ inputs.balance.value = 100 ∧ c.tx.PaidFrom raw 7 inputs.balance u c.store
      ∧ c.tx.tokens = [(⟨60, none⟩, 0), (⟨30, none⟩, 2)] ∧ c.tx.burntFee = 10 :=
  ⟨_, rfl, rfl, (pays_in_order _ _ 7 (by decide) rfl (by decide)).2.2, by decide, by decide⟩

end TokenLedger
