import TokenLedger.Proofs.Chain.Isolation

/-!
Runs of a chain. Blocks reach a chain by three calls, in any order and whether or not they are
accepted. A call comes down to one of two things (`call_cases`): it commits what was derived from a
block that goes on from the head, or it leaves the chain as it was. Which it is depends on the store
by its look-ups alone (`Agrees.call`). Where a store takes in a block wholly or not at all, so does a
chain on it (`applied_wholly_or_not_at_all`).
-/

namespace TokenLedger

/-- The calls by which blocks reach a chain. -/
inductive Call where
  | raw (block : RawBlock)
  | peer (claimed : Block)
  | peerWithRaw (claimed : Block) (block : RawBlock)

/-- The block that a call derives. -/
def Call.source : Call → RawBlock
  | raw block => block
  | peer claimed => claimed.toRaw
  | peerWithRaw _ block => block

/-- Whether a call has nothing against a derived block. -/
def Call.Admits : Call → Block → Prop
  | raw _, _ => True
  | peer claimed, derived => derived = claimed
  | peerWithRaw claimed block, derived => block.height = claimed.height ∧ derived = claimed

theorem divergence?_eq_none_iff {derived claimed : Block} :
    divergence? derived claimed = none ↔ derived = claimed := by
  unfold divergence?
  constructor
  · intro nothing
    split at nothing
    · assumption
    · split at nothing
      · cases nothing
      · split at nothing
        · cases nothing
        · split at nothing <;> cases nothing
  · intro same
    exact if_pos same

namespace Chain

variable {σ : Type}

theorem refuseDivergence_eq_none_iff {claimed derived : Block} :
    refuseDivergence claimed derived = none ↔ derived = claimed := by
  rw [refuseDivergence, Option.map_eq_none_iff, divergence?_eq_none_iff]

variable [Store σ]

/-- Makes a call. -/
def call (c : Chain σ) : Call → Except (Stop Rejection) (Option Block) × Chain σ
  | .raw block => c.applyRaw block
  | .peer claimed => c.applyPeer claimed
  | .peerWithRaw claimed block => c.applyPeerWithRaw claimed block

/-- Makes calls one after the other, whatever they answer. -/
def run (c : Chain σ) : List Call → Chain σ
  | [] => c
  | first :: rest => run (c.call first).2 rest

/-- What calls are answered that are made one after the other. -/
def answers (c : Chain σ) : List Call → List (Except (Stop Rejection) (Option Block))
  | [] => []
  | first :: rest => (c.call first).1 :: answers (c.call first).2 rest

/-- The chain before any block. -/
def start (g : Genesis) : Chain UnspentSet := { genesis := g, store := SortedMap.empty }

theorem run_append (c : Chain σ) (calls later : List Call) :
    c.run (calls ++ later) = (c.run calls).run later := by
  induction calls generalizing c with
  | nil => rfl
  | cons first rest ih => exact ih (c.call first).2

theorem answers_append (c : Chain σ) (calls later : List Call) :
    c.answers (calls ++ later) = c.answers calls ++ (c.run calls).answers later := by
  induction calls generalizing c with
  | nil => rfl
  | cons first rest ih => exact congrArg ((c.call first).1 :: ·) (ih (c.call first).2)

/-- What holds of a chain and is kept by each call holds after every run. -/
theorem run_induction {P : Chain σ → Prop}
    (step : ∀ c call, P c → P (Chain.call c call).2) {c : Chain σ} (first : P c)
    (calls : List Call) : P (c.run calls) := by
  induction calls generalizing c with
  | nil => exact first
  | cons call rest ih => exact ih (step c call first)

/-! ## One call -/

/-- What a staged block is: derived from one that goes on from the head. -/
structure Stages (c : Chain σ) (raw : RawBlock) (b : Block) (changes : List Change) : Prop where
  notBelow : ¬ raw.height < c.genesis.height
  goesOn : c.checkContinuity raw = .ok ()
  derived : deriveBlock c.genesis raw c.store = (.ok (b, changes), c.store)

theorem stage_eq_some {c after : Chain σ} {raw : RawBlock} {b : Block} {changes : List Change}
    (staged : c.stage raw = (.ok (some (b, changes)), after)) : c.Stages raw b changes := by
  unfold stage at staged
  split at staged
  · cases staged
  · rename_i notBelow
    split at staged
    · cases staged
    · rename_i goesOn
      cases derived : deriveBlock c.genesis raw c.store with
      | mk answer s =>
        obtain rfl : s = c.store := by rw [← deriveBlock_store c.genesis raw c.store, derived]
        rw [derived] at staged
        cases answer with
        | error e => cases staged
        | ok both =>
          cases staged
          exact ⟨notBelow, goesOn, derived⟩

theorem Stages.stage_eq {c : Chain σ} {raw : RawBlock} {b : Block} {changes : List Change}
    (stages : c.Stages raw b changes) : c.stage raw = (.ok (some (b, changes)), c) := by
  simp only [stage, if_neg stages.notBelow, stages.goesOn, stages.derived]

theorem Stages.applyRaw {c : Chain σ} {raw : RawBlock} {b : Block} {changes : List Change}
    (stages : c.Stages raw b changes) : c.applyRaw raw = c.commit b changes := by
  simp only [Chain.applyRaw, applyChecked, stages.stage_eq]

theorem applyRaw_below {c : Chain σ} {raw : RawBlock} (below : raw.height < c.genesis.height) :
    c.applyRaw raw = (.ok none, c) := by
  simp only [applyRaw, applyChecked, stage, if_pos below]

/-- Only for its height is a block passed over. -/
theorem applyRaw_eq_none_iff {c : Chain σ} {raw : RawBlock} :
    (c.applyRaw raw).1 = .ok none ↔ raw.height < c.genesis.height := by
  refine ⟨fun passed => ?_, fun below => congrArg Prod.fst (applyRaw_below below)⟩
  refine Decidable.byContradiction fun notBelow => ?_
  cases goesOn : c.checkContinuity raw with
  | error e =>
    simp only [applyRaw, applyChecked, stage, if_neg notBelow, goesOn] at passed
    cases passed
  | ok _ =>
    cases derived : deriveBlock c.genesis raw c.store with
    | mk answer s =>
      simp only [applyRaw, applyChecked, stage, if_neg notBelow, goesOn, derived] at passed
      cases answer with
      | error e => cases passed
      | ok staged =>
        simp only [commit] at passed
        split at passed <;> cases passed

/-- Chains with the same issue and the same blocks whose stores answer look-ups alike. -/
structure Agrees {τ : Type} [Store τ] (c : Chain σ) (d : Chain τ) : Prop where
  genesis_eq : c.genesis = d.genesis
  blocks_eq : c.blocks = d.blocks
  looks : ∀ r, Store.find? c.store r = Store.find? d.store r

namespace Agrees

variable {τ : Type} [Store τ] {c : Chain σ} {d : Chain τ}

omit [Store τ] in
theorem refl (c : Chain σ) : c.Agrees c := ⟨rfl, rfl, fun _ => rfl⟩

/-- Such chains stage the same, and staging leaves them as they are. -/
theorem stage (agrees : c.Agrees d) (raw : RawBlock) :
    ∃ answer, c.stage raw = (answer, c) ∧ d.stage raw = (answer, d) := by
  obtain ⟨g, s, blocks⟩ := c
  obtain ⟨g', t, blocks'⟩ := d
  obtain ⟨rfl, rfl, looks⟩ := agrees
  obtain ⟨answer, derived, derived'⟩ := deriveBlock_congr looks g raw
  -- The store has no part in whether a block goes on from the head.
  have goesOn : checkContinuity ⟨g, s, blocks⟩ raw = checkContinuity ⟨g, t, blocks⟩ raw := rfl
  simp only [Chain.stage, goesOn, derived, derived']
  split
  · exact ⟨_, rfl, rfl⟩
  · split
    · exact ⟨_, rfl, rfl⟩
    · cases answer <;> exact ⟨_, rfl, rfl⟩

/-- They commit a staged block that nothing is held against, or they answer alike, but with no block,
and stay as they are. -/
theorem applyChecked (agrees : c.Agrees d) (raw : RawBlock) (check : Block → Option Rejection) :
    (∃ b changes, d.Stages raw b changes ∧ check b = none
        ∧ c.applyChecked raw check = c.commit b changes
        ∧ d.applyChecked raw check = d.commit b changes)
      ∨ ∃ answer, c.applyChecked raw check = (answer, c)
        ∧ d.applyChecked raw check = (answer, d) ∧ ∀ b, answer ≠ .ok (some b) := by
  obtain ⟨answer, staged, staged'⟩ := agrees.stage raw
  simp only [Chain.applyChecked, staged, staged']
  cases answer with
  | error e => exact .inr ⟨_, rfl, rfl, nofun⟩
  | ok staged? =>
    cases staged? with
    | none => exact .inr ⟨_, rfl, rfl, nofun⟩
    | some both =>
      obtain ⟨b, changes⟩ := both
      dsimp only
      cases checked : check b with
      | some r => exact .inr ⟨_, rfl, rfl, nofun⟩
      | none => exact .inl ⟨b, changes, stage_eq_some staged', checked, rfl, rfl⟩

theorem call (agrees : c.Agrees d) (call : Call) :
    (∃ b changes, d.Stages call.source b changes ∧ call.Admits b
        ∧ c.call call = c.commit b changes ∧ d.call call = d.commit b changes)
      ∨ ∃ answer, c.call call = (answer, c) ∧ d.call call = (answer, d)
        ∧ ∀ b, answer ≠ .ok (some b) := by
  cases call with
  | raw block =>
    exact (agrees.applyChecked block fun _ => none).imp_left
      fun ⟨b, changes, stages, _, committed⟩ => ⟨b, changes, stages, trivial, committed⟩
  | peer claimed =>
    exact (agrees.applyChecked claimed.toRaw (refuseDivergence claimed)).imp_left
      fun ⟨b, changes, stages, checked, committed⟩ =>
        ⟨b, changes, stages, refuseDivergence_eq_none_iff.1 checked, committed⟩
  | peerWithRaw claimed block =>
    simp only [Chain.call, applyPeerWithRaw]
    split
    · exact .inr ⟨_, rfl, rfl, nofun⟩
    · rename_i heights
      exact (agrees.applyChecked block (refuseDivergence claimed)).imp_left
        fun ⟨b, changes, stages, checked, committed⟩ => ⟨b, changes, stages,
          ⟨Decidable.not_not.1 heights, refuseDivergence_eq_none_iff.1 checked⟩, committed⟩

end Agrees

/-- A call commits a staged block that it has nothing against, or it answers no block and leaves
the chain as it was. -/
theorem call_cases (c : Chain σ) (call : Call) :
    (∃ b changes, c.Stages call.source b changes ∧ call.Admits b
        ∧ c.call call = c.commit b changes)
      ∨ ((c.call call).2 = c ∧ ∀ b, (c.call call).1 ≠ .ok (some b)) := by
  rcases (Agrees.refl c).call call with
    ⟨b, changes, stages, admits, committed, _⟩ | ⟨answer, answered, _, noBlock⟩
  · exact .inl ⟨b, changes, stages, admits, committed⟩
  · rw [answered]
    exact .inr ⟨rfl, noBlock⟩

end Chain

/-! ## All or nothing -/

/-- Stores that take in a block wholly or not at all. -/
class AtomicStore (σ : Type) [Store σ] : Prop where
  commitBlock_error {s s' : σ} {changes : List Change} {b : Block} {e : StoreError} :
    Store.commitBlock s changes b = (.error e, s') → s' = s

instance : AtomicStore UnspentSet where
  commitBlock_error := by
    intro u u' changes b e refused
    rw [UnspentSet.commitBlock_eq] at refused
    cases refused

/-- Steps that are run as one leave no trace when one of them fails. -/
theorem Database.transact_error {db after : Database} {e : StoreError}
    {steps : Database → Except StoreError Unit × Database}
    (refused : db.transact steps = (.error e, after)) : after = db := by
  unfold transact at refused
  split at refused
  · cases refused
  · cases refused
    rfl

instance : AtomicStore Database where
  commitBlock_error := Database.transact_error

namespace Chain

variable {σ : Type} [Store σ]

/-- A call either appends the block that it answers, or leaves everything exactly as it was. -/
def AllOrNothing (c : Chain σ) (call : Call) : Prop :=
  match c.call call with
  | (.ok (some b), after) => after.blocks = c.blocks ++ [b] ∧ after.genesis = c.genesis
  | (.ok none, after) => after = c
  | (.error _, after) => after = c

theorem call_allOrNothing [AtomicStore σ] (c : Chain σ) (call : Call) : c.AllOrNothing call := by
  unfold AllOrNothing
  rcases c.call_cases call with ⟨b, changes, _, _, committed⟩ | ⟨same, noBlock⟩
  · rw [committed, commit]
    cases taken : Store.commitBlock c.store changes b with
    | mk answer s =>
      cases answer with
      | ok => exact ⟨rfl, rfl⟩
      | error e =>
        have kept := AtomicStore.commitBlock_error taken
        rw [kept]
  · cases answered : c.call call with
    | mk answer after =>
      rw [answered] at same noBlock
      cases answer with
      | error e => exact same
      | ok block? =>
        cases block? with
        | none => exact same
        | some b => exact absurd rfl (noBlock b)

/-- The blocks among answers. -/
def derivedBlocks : List (Except (Stop Rejection) (Option Block)) → List Block
  | [] => []
  | .ok (some b) :: rest => b :: derivedBlocks rest
  | .ok none :: rest => derivedBlocks rest
  | .error _ :: rest => derivedBlocks rest

/-- A run adds the blocks that are answered. -/
theorem blocks_run [AtomicStore σ] (c : Chain σ) (calls : List Call) :
    (c.run calls).blocks = c.blocks ++ derivedBlocks (c.answers calls) := by
  induction calls generalizing c with
  | nil => exact (List.append_nil c.blocks).symm
  | cons call rest ih =>
    have whole := c.call_allOrNothing call
    rw [run, answers, ih]
    unfold AllOrNothing at whole
    split at whole
    · rename_i b after answered
      rw [answered, whole.1, derivedBlocks, List.append_assoc, List.singleton_append]
    · rename_i after answered
      rw [answered, whole, derivedBlocks]
    · rename_i e after answered
      rw [answered, whole, derivedBlocks]

/-- Blocks are never lost. -/
theorem blocks_prefix_run [AtomicStore σ] (c : Chain σ) (calls : List Call) :
    c.blocks <+: (c.run calls).blocks :=
  ⟨_, (c.blocks_run calls).symm⟩

/-- Whatever the ledger and the blocks of a chain are, in memory or in a database, a block is applied
wholly or not at all. -/
theorem applied_wholly_or_not_at_all :
    (∀ (c : Chain UnspentSet) (call : Call), c.AllOrNothing call)
      ∧ ∀ (c : Chain Database) (call : Call), c.AllOrNothing call :=
  ⟨call_allOrNothing, call_allOrNothing⟩

end Chain

end TokenLedger
