import TokenLedger.Proofs.Classification.Payment

/-!
What a token transaction is in the end, and what each of its outputs is. While the outputs are gone
through the kind changes in place, an invalid transaction stays invalid, and the last output can
alter the one before it. What this comes to is read off the outputs on the chain: the kind
(`RawTx.finalKind`) from which of them ask for something and from what is burnt, a role
(`RawTx.finalRole`) from the kind, the position and what is paid (`kind_and_roles`).
-/

namespace TokenLedger

/-- What an output on the chain asks for: its data is twenty-two bytes long and begins with the tag
and the version of a compensation request or of a vote. -/
def RawOutput.asked? (o : RawOutput) : Option GovernanceKind :=
  match o.data? with
  | none => none
  | some data =>
    if data.length = 22 ∧ [1, 1] <+: data then some .compensationRequest
    else if data.length = 22 ∧ [2, 1] <+: data then some .vote
    else none

/-- The kind of a transaction whose last output asks for something. -/
def GovernanceKind.txKind : GovernanceKind → TxKind
  | .compensationRequest => .compensationRequest
  | .vote => .vote

/-- The role of data in the last output of a transaction of a kind. -/
def TxKind.dataRole : TxKind → OutputRole
  | .compensationRequest => .compensationRequestData
  | .vote => .voteData
  | _ => .data

/-- What a transaction of a kind is after outputs, before anything is burnt. -/
def kindAfter (kind : TxKind) (outputs : List RawOutput) : TxKind :=
  if kind = .invalid ∨ ∃ o ∈ outputs.dropLast, o.asked?.isSome then .invalid
  else ((outputs.getLast?.bind RawOutput.asked?).map GovernanceKind.txKind).getD kind

/-- What a token transaction is that burns an amount. -/
def RawTx.finalKind (raw : RawTx) (burnt : UInt64) : TxKind :=
  if ∃ o ∈ raw.outputs.dropLast, o.asked?.isSome then .invalid
  else
    match raw.outputs.getLast?.bind RawOutput.asked? with
    | some asked => asked.txKind
    | none => if 0 < burnt then .feePayment else .transfer

/-- What an output at a position is in a transaction of a kind that pays outputs. -/
def RawTx.finalRole (raw : RawTx) (kind : TxKind) (paid : List (RawOutput × Nat))
    (e : RawOutput × Nat) : OutputRole :=
  if e.1.data?.isSome then
    if e.2 + 1 = raw.outputs.length then kind.dataRole else .data
  else if e ∈ paid then .token
  else if kind = .compensationRequest ∧ e.2 + 2 = raw.outputs.length then .issuanceCandidate
  else .native

/-- Data counts in the last output only, and there as the kind of the transaction has it. -/
def DataRoles (kind : TxKind) (outputs : List TxOutput) : Prop :=
  ∀ i o, outputs[i]? = some o → o.data?.isSome →
    o.role = if i + 1 = outputs.length then kind.dataRole else .data

theorem TxKind.dataRole_eq_iff {kind : TxKind} :
    kind.dataRole = .compensationRequestData ↔ kind = .compensationRequest := by
  cases kind <;> simp [dataRole]

theorem TxKind.dataRole_invalidated {kind : TxKind} (mere : kind.dataRole = .data) (c : Prop)
    [Decidable c] : (if c then TxKind.invalid else kind).dataRole = .data := by
  split
  · rfl
  · exact mere

theorem TxKind.dataRole_ne_native (kind : TxKind) : kind.dataRole ≠ .native := by
  cases kind <;> simp [dataRole]

/-! ## One output -/

theorem kindOf?_eq_asked? {o : RawOutput} {data : Bytes} (carried : o.data? = some data) :
    Payload.kindOf? data = o.asked? := by
  unfold RawOutput.asked?
  rw [carried]
  match data with
  | [] => rfl
  | [_] => rfl
  | tag :: version :: hash =>
    by_cases long : (tag :: version :: hash).length = 22
    · have taken : Payload.decode? (tag :: version :: hash) = some ⟨tag, version, hash⟩ :=
        if_pos long
      have begins (t : UInt8) : [t, 1] <+: tag :: version :: hash ↔ tag = t ∧ version = 1 := by
        rw [List.cons_prefix_cons, List.cons_prefix_cons]
        constructor
        · rintro ⟨rfl, rfl, -⟩
          exact ⟨rfl, rfl⟩
        · rintro ⟨rfl, rfl⟩
          exact ⟨rfl, rfl, List.nil_prefix⟩
      simp only [Payload.kindOf?, taken, Option.bind_some, Payload.kind?, begins, long, true_and,
        Payload.currentVersion, Payload.compensationRequestTag, Payload.voteTag]
      by_cases current : version = 1
      · by_cases request : tag = 1
        · simp [current, request]
        · by_cases vote : tag = 2 <;> simp [current, request, vote]
      · simp [current]
    · have refused : Payload.decode? (tag :: version :: hash) = none := if_neg long
      simp only [Payload.kindOf?, refused, Option.bind_none, long, false_and, if_false]

theorem asked?_of_noData {o : RawOutput} (noData : o.data? = none) : o.asked? = none := by
  rw [RawOutput.asked?, noData]

/-- Before the last output, data makes a transaction invalid or leaves it as it is. -/
theorem governed_before_last (kind : TxKind) (data : Bytes) :
    governed false kind data
      = (if (Payload.kindOf? data).isSome then .invalid else kind, .data) := by
  unfold governed
  cases Payload.kindOf? data with
  | none => rfl
  | some asked => rfl

/-- In the last output, data decides over a transaction that is not invalid. -/
theorem governed_last {kind : TxKind} (mere : kind.dataRole = .data) (data : Bytes) :
    let after := if kind = .invalid then .invalid
      else ((Payload.kindOf? data).map GovernanceKind.txKind).getD kind
    governed true kind data = (after, after.dataRole) := by
  unfold governed
  cases Payload.kindOf? data with
  | none =>
    by_cases invalid : kind = .invalid
    · simp [invalid, TxKind.dataRole]
    · simp [invalid, mere]
  | some asked =>
    by_cases invalid : kind = .invalid
    · simp [invalid, TxKind.dataRole]
    · cases asked <;> simp [invalid, GovernanceKind.txKind, TxKind.dataRole]

theorem DataRoles.cons {kind : TxKind} {o : TxOutput} {rest : List TxOutput}
    (first : o.data?.isSome → o.role = if rest = [] then kind.dataRole else .data)
    (later : DataRoles kind rest) : DataRoles kind (o :: rest) := by
  intro i o' listed carries
  cases i with
  | zero =>
    cases listed
    simp [first carries]
  | succ i =>
    simp only [List.length_cons, Nat.add_right_cancel_iff]
    exact later i o' listed carries

theorem DataRoles.last {kind : TxKind} {outputs : List TxOutput} (roles : DataRoles kind outputs)
    {last : TxOutput} (found : outputs.getLast? = some last) (carries : last.data?.isSome) :
    last.role = kind.dataRole := by
  have nonempty : outputs ≠ [] := by
    rintro rfl
    cases found
  have position : outputs.length - 1 + 1 = outputs.length :=
    Nat.sub_add_cancel (List.length_pos_iff.2 nonempty)
  rw [List.getLast?_eq_getElem?] at found
  rw [roles _ last found carries, if_pos position]

/-! ## Kinds -/

theorem kindAfter_nil (kind : TxKind) : kindAfter kind [] = kind := by
  by_cases invalid : kind = .invalid
  · simp [kindAfter, invalid]
  · simp [kindAfter, invalid]

theorem kindAfter_singleton (kind : TxKind) (o : RawOutput) :
    kindAfter kind [o] = if kind = .invalid then .invalid
      else (o.asked?.map GovernanceKind.txKind).getD kind := by
  simp [kindAfter]

theorem kindAfter_cons_cons (kind : TxKind) (o next : RawOutput) (rest : List RawOutput) :
    kindAfter kind (o :: next :: rest)
      = kindAfter (if o.asked?.isSome then .invalid else kind) (next :: rest) := by
  cases asked : o.asked? with
  | none => simp [kindAfter, asked]
  | some g => simp [kindAfter, asked]

theorem kindAfter_noData {o : RawOutput} (noData : o.data? = none) (kind : TxKind)
    (rest : List RawOutput) : kindAfter kind (o :: rest) = kindAfter kind rest := by
  have nothing := asked?_of_noData noData
  cases rest with
  | nil =>
    rw [kindAfter_nil, kindAfter_singleton, nothing]
    exact ite_eq_right_iff.2 Eq.symm
  | cons next rest =>
    rw [kindAfter_cons_cons, nothing, Option.isSome_none, if_neg Bool.false_ne_true]

/-- Only the last output makes a transaction a compensation request. -/
theorem exists_last_of_kindAfter {outputs : List RawOutput}
    (request : kindAfter .transfer outputs = .compensationRequest) :
    ∃ last, outputs.getLast? = some last ∧ last.data?.isSome := by
  unfold kindAfter at request
  split at request
  · cases request
  · cases ending : outputs.getLast? with
    | none => simp [ending] at request
    | some last =>
      refine ⟨last, rfl, ?_⟩
      cases data : last.data? with
      | some _ => rfl
      | none => simp [ending, asked?_of_noData data] at request

theorem RawTx.finalKind_eq (raw : RawTx) (burnt : UInt64) :
    raw.finalKind burnt = if 0 < burnt ∧ kindAfter .transfer raw.outputs = .transfer
      then .feePayment else kindAfter .transfer raw.outputs := by
  unfold RawTx.finalKind kindAfter
  by_cases early : ∃ o ∈ raw.outputs.dropLast, o.asked?.isSome
  · simp only [early, or_true, if_true]
    exact (if_neg fun burns => by cases burns.2).symm
  · simp only [early, or_false, if_false]
    cases raw.outputs.getLast?.bind RawOutput.asked? with
    | none => simp
    | some asked => cases asked <;> simp [GovernanceKind.txKind]

namespace Assigns

variable {outputs outputs' : List TxOutput} {kind kind' : TxKind} {balance left : Balance}
  {closed : Bool}

theorem map_toRaw (assigns : Assigns outputs kind balance closed outputs' kind' left) :
    outputs'.map TxOutput.toRaw = outputs.map TxOutput.toRaw := by
  induction assigns with
  | done => rfl
  | @data o _ _ _ _ _ _ _ _ _ _ ih => exact congrArg (o.toRaw :: ·) ih
  | @paid o _ _ _ _ _ _ _ _ _ ih => exact congrArg (o.toRaw :: ·) ih
  | @native o _ _ _ _ _ _ _ _ _ _ ih => exact congrArg (o.toRaw :: ·) ih

theorem length_eq (assigns : Assigns outputs kind balance closed outputs' kind' left) :
    outputs'.length = outputs.length := by
  have same := congrArg List.length assigns.map_toRaw
  rwa [List.length_map, List.length_map] at same

theorem kind_eq (assigns : Assigns outputs kind balance closed outputs' kind' left)
    (mere : kind.dataRole = .data) : kind' = kindAfter kind (outputs.map TxOutput.toRaw) := by
  induction assigns with
  | done => rw [List.map_nil, kindAfter_nil]
  | @data o rest _ data kind _ _ _ _ carried later ih =>
    have asked : Payload.kindOf? data = o.toRaw.asked? :=
      kindOf?_eq_asked? (show o.toRaw.data? = _ from carried)
    cases rest with
    | nil =>
      cases later
      rw [List.isEmpty_nil, governed_last mere, asked, List.map_cons, List.map_nil,
        kindAfter_singleton]
    | cons next rest =>
      rw [List.isEmpty_cons, governed_before_last, asked] at ih
      rw [List.map_cons, List.map_cons, kindAfter_cons_cons]
      exact ih (TxKind.dataRole_invalidated mere _)
  | @paid o _ _ _ _ _ _ noData _ _ ih =>
    rw [ih mere, List.map_cons, kindAfter_noData (show o.toRaw.data? = none from noData)]
  | @native o _ _ _ _ _ _ _ noData _ _ ih =>
    rw [ih mere, List.map_cons, kindAfter_noData (show o.toRaw.data? = none from noData)]

theorem role_of_noData (assigns : Assigns outputs kind balance closed outputs' kind' left) :
    ∀ o ∈ outputs', o.data? = none → o.role = .token ∨ o.role = .native := by
  induction assigns with
  | done => exact nofun
  | data carried _ ih =>
    refine List.forall_mem_cons.2 ⟨fun noData => ?_, ih⟩
    cases carried.symm.trans noData
  | paid _ _ _ ih => exact List.forall_mem_cons.2 ⟨fun _ => .inl rfl, ih⟩
  | native _ _ _ ih => exact List.forall_mem_cons.2 ⟨fun _ => .inr rfl, ih⟩

theorem dataRoles (assigns : Assigns outputs kind balance closed outputs' kind' left)
    (mere : kind.dataRole = .data) : DataRoles kind' outputs' := by
  induction assigns with
  | done => exact nofun
  | @data _ rest outputs data kind _ _ _ _ _ later ih =>
    cases rest with
    | nil =>
      cases later
      rw [List.isEmpty_nil, governed_last mere] at ih ⊢
      exact .cons (fun _ => rfl) nofun
    | cons next rest =>
      rw [List.isEmpty_cons, governed_before_last] at later ih ⊢
      have more : outputs ≠ [] := List.ne_nil_of_length_eq_add_one later.length_eq
      exact .cons (fun _ => (if_neg more).symm) (ih (TxKind.dataRole_invalidated mere _))
  | paid noData _ _ ih =>
    refine .cons (fun carries => ?_) (ih mere)
    cases (congrArg Option.isSome noData).symm.trans carries
  | native noData _ _ ih =>
    refine .cons (fun carries => ?_) (ih mere)
    cases (congrArg Option.isSome noData).symm.trans carries

/-- The last output asks for compensation exactly if the transaction does. -/
theorem last_role_iff (assigns : Assigns outputs .transfer balance closed outputs' kind' left) :
    outputs'.getLast?.map TxOutput.role = some .compensationRequestData
      ↔ kind'.dataRole = .compensationRequestData := by
  have roles := assigns.dataRoles rfl
  constructor
  · intro asks
    obtain ⟨last, found, role⟩ := Option.map_eq_some_iff.1 asks
    rw [← role]
    cases data : last.data? with
    | some _ => exact (roles.last found (by rw [data]; rfl)).symm
    | none =>
      rcases assigns.role_of_noData last (List.mem_of_getLast? found) data with other | other
      · cases role.symm.trans other
      · cases role.symm.trans other
  · intro asks
    have request : kind' = .compensationRequest := TxKind.dataRole_eq_iff.1 asks
    rw [assigns.kind_eq rfl, ← assigns.map_toRaw] at request
    obtain ⟨raw, ended, carries⟩ := exists_last_of_kindAfter request
    rw [List.getLast?_map] at ended
    obtain ⟨last, found, rfl⟩ := Option.map_eq_some_iff.1 ended
    rw [found, Option.map_some, roles.last found carries, asks]

end Assigns

/-! ## The output before the last -/

/-- What an output was before the one that would be paid was marked. -/
theorem exists_of_markCandidate {outputs : List TxOutput} {i : Nat} {o : TxOutput}
    (listed : (markCandidate outputs)[i]? = some o) :
    ∃ o', outputs[i]? = some o' ∧ o.toRaw = o'.toRaw
      ∧ o.role = if o'.role = .native ∧ i + 2 = outputs.length
          ∧ outputs.getLast?.map TxOutput.role = some .compensationRequestData
        then .issuanceCandidate else o'.role := by
  fun_induction markCandidate outputs generalizing i with
  | case1 first last asks =>
    obtain ⟨request, native⟩ := asks
    rcases i with _ | _ | i
    · cases listed
      exact ⟨first, rfl, rfl, by simp [native, request]⟩
    · cases listed
      exact ⟨_, rfl, rfl, by simp⟩
    · cases listed
  | case2 first last asks =>
    refine ⟨o, listed, rfl, (if_neg ?_).symm⟩
    rintro ⟨native, before, request⟩
    obtain rfl : i = 0 := by
      simp only [List.length_cons, List.length_nil] at before
      omega
    cases listed
    exact asks ⟨Option.some.inj request, native⟩
  | case3 first rest several ih =>
    cases i with
    | zero =>
      cases listed
      refine ⟨_, rfl, rfl, (if_neg ?_).symm⟩
      rintro ⟨-, before, -⟩
      obtain ⟨last, rfl⟩ := List.length_eq_one_iff.1 (Nat.succ.inj before).symm
      exact several last rfl
    | succ i =>
      obtain ⟨o', before, same, role⟩ := ih listed
      have nonempty : rest ≠ [] := by
        rintro rfl
        cases before
      refine ⟨o', before, same, ?_⟩
      have place : i + 2 = rest.length ↔ i + 1 + 2 = (first :: rest).length := by
        rw [List.length_cons]
        omega
      simp only [role, place, List.getLast?_cons_of_ne_nil nonempty]
  | case4 => cases listed

/-! ## The whole transaction -/

/-- The roles of a record whose outputs were gone through and the candidate marked. -/
theorem Tx.role_eq_finalRole {tx : Tx} {raw : RawTx} (unaltered : tx.toRaw = raw)
    {outputs outputs' : List TxOutput} {balance left : Balance} {closed : Bool} {kind' : TxKind}
    (assigns : Assigns outputs .transfer balance closed outputs' kind' left)
    (marked : tx.outputs = markCandidate outputs') (sameRole : kind'.dataRole = tx.kind.dataRole)
    {i : Nat} {o : TxOutput} (listed : tx.outputs[i]? = some o) :
    o.role = raw.finalRole tx.kind tx.tokens (o.toRaw, i) := by
  have length : raw.outputs.length = outputs'.length := by
    rw [← unaltered, Tx.toRaw, marked, map_markCandidate TxOutput.toRaw fun _ _ => rfl,
      List.length_map]
  obtain ⟨o', before, same, role⟩ := exists_of_markCandidate (marked ▸ listed)
  have place : (o.toRaw, i) ∈ tx.tokens ↔ o.role = .token := by
    rw [mem_tokens_iff]
    constructor
    · rintro ⟨found, there, token, -⟩
      rw [Option.some.inj (listed.symm.trans there)]
      exact token
    · intro token
      exact ⟨o, listed, token, rfl⟩
  simp only [RawTx.finalRole, place, length, ← TxKind.dataRole_eq_iff, ← sameRole]
  simp only [assigns.last_role_iff] at role
  by_cases carries : o.toRaw.data?.isSome
  · have dataRole := assigns.dataRoles rfl i o' before (by rw [← carries, same]; rfl)
    have other : o'.role ≠ .native := by
      rw [dataRole]
      split
      · exact kind'.dataRole_ne_native
      · decide
    rw [if_pos carries, role, if_neg fun asks => other asks.1, dataRole]
  · have noData : o'.data? = none := by
      rw [same] at carries
      exact Option.not_isSome_iff_eq_none.1 carries
    rw [if_neg carries]
    rcases assigns.role_of_noData o' (List.mem_of_getElem? before) noData with token | native
    · simp [role, token]
    · simp [role, native, and_comm]

/-- The kind of a transaction that is kept, whatever height its record was made with. -/
theorem classify_kind {σ : Type} [Store σ] [LawfulStore σ] {s : σ} {u : UnspentSet}
    (holds : Holds s u) {raw : RawTx} {height made : UInt64}
    (kept : (classify height (Tx.ofRaw raw made) s).result = .ok true) :
    (classify height (Tx.ofRaw raw made) s).tx.kind
      = raw.finalKind (classify height (Tx.ofRaw raw made) s).tx.burntFee := by
  have moved : Tx.ofRaw raw made = { Tx.ofRaw raw height with height := made } := rfl
  rw [moved, classify_madeAt] at kept ⊢
  obtain ⟨inputs, spent, evaluated, positive⟩ := positive_of_classify kept
  obtain ⟨ended, -, kind, -, -⟩ := classify_allocates holds evaluated positive
  have unaltered : (Tx.ofRaw raw height).outputs.map TxOutput.toRaw = raw.outputs :=
    congrArg RawTx.outputs (toRaw_ofRaw raw height)
  have after := (assigns_allocate ended).kind_eq rfl
  rw [unaltered] at after
  rw [RawTx.finalKind_eq, ← after]
  exact kind

/-- Whatever a set holds: a transaction that is kept has the kind that its outputs and what is burnt
make it, and each of its outputs the role that this kind, its position and the balance give it. -/
theorem kind_and_roles (u : UnspentSet) (raw : RawTx) (height : UInt64)
    (kept : (classify height (Tx.ofRaw raw height) u).result = .ok true) :
    let tx := (classify height (Tx.ofRaw raw height) u).tx
    tx.toRaw = raw ∧ tx.kind = raw.finalKind tx.burntFee
      ∧ ∃ paid, IsLongestPrefix (Affordable (worth u raw.inputs)) paid raw.spendable
        ∧ ∀ i o, tx.outputs[i]? = some o → o.role = raw.finalRole tx.kind paid (o.toRaw, i) := by
  intro tx
  have holds : Holds u u := holds_unspentSet_iff.2 rfl
  obtain ⟨inputs, spent, evaluated, positive⟩ := positive_of_classify kept
  obtain ⟨-, total, -⟩ := evaluateInputs_eq_ok holds evaluated
  have brought : inputs.balance.value.toNat = worth u raw.inputs := by
    rw [total, worth_eq_foundTotal holds]
    rfl
  obtain ⟨-, follows, -⟩ := classify_follows holds evaluated positive
  obtain ⟨longest, -, -⟩ := classify_pays holds evaluated positive
  obtain ⟨ended, outputs, kind, -, -⟩ := classify_allocates holds evaluated positive
  have assigns := assigns_allocate ended
  generalize allocate _ height 0 _ _ _ _ spent = a at outputs kind assigns
  have unaltered : (Tx.ofRaw raw height).outputs.map TxOutput.toRaw = raw.outputs :=
    congrArg RawTx.outputs (toRaw_ofRaw raw height)
  have after := assigns.kind_eq rfl
  rw [unaltered] at after
  have sameRole : a.kind.dataRole = tx.kind.dataRole := by
    simp only [tx, kind]
    split
    · rename_i burns
      rw [burns.2]
      rfl
    · rfl
  refine ⟨follows.unaltered, ?_, tx.tokens, ?_, ?_⟩
  · rw [RawTx.finalKind_eq, ← after]
    exact kind
  · rw [← brought]
    exact longest
  · intro i o listed
    exact Tx.role_eq_finalRole follows.unaltered assigns outputs sameRole listed

/-- The output before a compensation request is not paid, so it is the one that would be paid; what
is left is burnt without making the transaction a payment. -/
theorem requests_with_candidate :
    let u : UnspentSet := SortedMap.empty.insert ⟨"a", 0⟩ ⟨100, 5, .token⟩
    let request : Bytes := [1, 1] ++ List.replicate 20 0
    let raw : RawTx := ⟨"t", [⟨"a", 0⟩],
      [⟨60, none⟩, ⟨0, some [1, 1]⟩, ⟨50, none⟩, ⟨0, some request⟩]⟩
    let tx := (classify 7 (Tx.ofRaw raw 7) u).tx
    tx.kind = .compensationRequest ∧ tx.burntFee = 40
      ∧ tx.outputs.map TxOutput.role = [.token, .data, .issuanceCandidate, .compensationRequestData]
      ∧ ∃ paid, IsLongestPrefix (Affordable (worth u raw.inputs)) paid raw.spendable
        ∧ ∀ i o, tx.outputs[i]? = some o → o.role = raw.finalRole tx.kind paid (o.toRaw, i) :=
  ⟨by decide, by decide, by decide, (kind_and_roles _ _ 7 (by decide)).2.2⟩

end TokenLedger
