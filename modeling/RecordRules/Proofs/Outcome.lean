import RecordRules.Error

/-!
# Outcomes

When an outcome that was put together of others is a success, and when it is an error.
These equations take the place of a case analysis wherever a computation that may fail
is opened from its result.
-/

namespace Except

variable {ε ε' α β : Type}

/-- One step after another succeeds if both do. -/
theorem bind_eq_ok_iff {x : Except ε α} {f : α → Except ε β} {b : β} :
    x >>= f = .ok b ↔ ∃ a, x = .ok a ∧ f a = .ok b := by
  cases x with
  | error e => exact ⟨nofun, nofun⟩
  | ok a => exact ⟨fun h => ⟨a, rfl, h⟩, fun ⟨_, ha, h⟩ => Except.ok.inj ha ▸ h⟩

/-- One step after another fails if the first does, or if it succeeds and the second
fails. -/
theorem bind_eq_error_iff {x : Except ε α} {f : α → Except ε β} {e : ε} :
    x >>= f = .error e ↔ x = .error e ∨ ∃ a, x = .ok a ∧ f a = .error e := by
  cases x with
  | error e' =>
    refine ⟨fun h => .inl (congrArg error (Except.error.inj h)), ?_⟩
    rintro (h | ⟨_, h, -⟩)
    · exact congrArg error (Except.error.inj h)
    · cases h
  | ok a =>
    refine ⟨fun h => .inr ⟨a, rfl, h⟩, ?_⟩
    rintro (h | ⟨_, ha, h⟩)
    · cases h
    · exact Except.ok.inj ha ▸ h

/-- A failure is told by its error. -/
theorem error_eq_error_iff {e e' : ε} :
    (error e : Except ε α) = .error e' ↔ some e = some e' := by
  rw [error.injEq, Option.some.injEq]

/-- A success has no error. -/
theorem ok_eq_error_iff {a : α} {e : ε} : (ok a : Except ε α) = .error e ↔ none = some e :=
  ⟨nofun, nofun⟩

/-- What is made of a value succeeds if the value is there. -/
theorem map_eq_ok_iff {x : Except ε α} {f : α → β} {b : β} :
    x.map f = .ok b ↔ ∃ a, x = .ok a ∧ f a = b := by
  cases x with
  | error e => exact ⟨nofun, nofun⟩
  | ok a =>
    exact ⟨fun h => ⟨a, rfl, Except.ok.inj h⟩, fun ⟨_, ha, h⟩ => congrArg ok (Except.ok.inj ha ▸ h)⟩

/-- What is made of a value fails as the value does. -/
theorem map_eq_error_iff {x : Except ε α} {f : α → β} {e : ε} :
    x.map f = .error e ↔ x = .error e := by
  cases x with
  | error e' => exact error_eq_error_iff.trans error_eq_error_iff.symm
  | ok a => exact ⟨nofun, nofun⟩

/-- Rewording an error makes nothing succeed. -/
theorem mapError_eq_ok_iff {x : Except ε α} {f : ε → ε'} {a : α} :
    x.mapError f = .ok a ↔ x = .ok a := by
  cases x with
  | error e => exact ⟨nofun, nofun⟩
  | ok a' => exact ⟨fun h => congrArg ok (Except.ok.inj h), fun h => congrArg ok (Except.ok.inj h)⟩

/-- An error that was reworded was an error before. -/
theorem mapError_eq_error_iff {x : Except ε α} {f : ε → ε'} {e' : ε'} :
    x.mapError f = .error e' ↔ ∃ e, x = .error e ∧ f e = e' := by
  cases x with
  | error e =>
    refine ⟨fun h => ⟨e, rfl, Except.error.inj h⟩, ?_⟩
    rintro ⟨_, ⟨⟩, rfl⟩
    rfl
  | ok a => exact ⟨nofun, nofun⟩

end Except

/-- A value was decoded if it is there. -/
theorem RecordRules.Error.decoded_eq_ok_iff {α : Type} {x : Option α} {a : α} :
    Error.decoded x = .ok a ↔ x = some a := by
  cases x with
  | none => exact ⟨nofun, nofun⟩
  | some b => rw [decoded, Except.ok.injEq, Option.some.injEq]
