/-!
Computations of two steps that may fail. They succeed if both steps do, and otherwise they fail with
the error of the first step that does.
-/

namespace TokenLedger

variable {ε α β : Type} {first : Except ε α} {next : α → Except ε β}

/-- After a step that succeeds, the next one goes on with its result. -/
theorem ok_bind (a : α) (next : α → Except ε β) : (Except.ok a >>= next) = next a := rfl

/-- After a step that fails, nothing is done. -/
theorem error_bind (e : ε) (next : α → Except ε β) :
    ((Except.error e : Except ε α) >>= next) = .error e := rfl

/-- Two steps succeed if the first does and the second does with its result. -/
theorem bind_eq_ok_iff {b : β} :
    (first >>= next) = .ok b ↔ ∃ a, first = .ok a ∧ next a = .ok b := by
  cases first with
  | error e => exact ⟨nofun, nofun⟩
  | ok a => exact ⟨fun done => ⟨a, rfl, done⟩, fun ⟨_, same, done⟩ => Except.ok.inj same ▸ done⟩

theorem bind_eq_error_iff {e : ε} :
    (first >>= next) = .error e ↔ first = .error e ∨ ∃ a, first = .ok a ∧ next a = .error e := by
  cases first with
  | error cause =>
    constructor
    · exact fun failed => .inl (congrArg _ (Except.error.inj failed))
    · rintro (failed | ⟨_, same, _⟩)
      · exact congrArg _ (Except.error.inj failed)
      · cases same
  | ok a =>
    constructor
    · exact fun failed => .inr ⟨a, rfl, failed⟩
    · rintro (failed | ⟨_, same, failed⟩)
      · cases failed
      · exact Except.ok.inj same ▸ failed

end TokenLedger
