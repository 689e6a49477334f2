import MessageCatalog.Catalog.Noted

/-!
# Outcomes of steps that may fail

An operation that is done step by step succeeds if every step does, and its outcome does not depend
on the notices that the steps leave.
-/

namespace MessageCatalog

/-! ## Results -/

section

variable {ε ε' α β : Type}

@[simp] theorem ok_bind (a : α) (f : α → Except ε β) : (Except.ok a >>= f) = f a := rfl

theorem exists_of_bind_eq_ok {x : Except ε α} {f : α → Except ε β} {b : β}
    (h : x >>= f = .ok b) : ∃ a, x = .ok a ∧ f a = .ok b := by
  cases x with
  | error e => cases h
  | ok a => exact ⟨a, rfl, h⟩

theorem exists_of_map_eq_ok {x : Except ε α} {f : α → β} {b : β}
    (h : x.map f = .ok b) : ∃ a, x = .ok a ∧ f a = b := by
  cases x with
  | error e => cases h
  | ok a => exact ⟨a, rfl, Except.ok.inj h⟩

@[simp] theorem toOption_eq_some_iff {x : Except ε α} {a : α} :
    x.toOption = some a ↔ x = .ok a := by
  rcases x with e | b
  · constructor
    · rintro ⟨⟩
    · rintro ⟨⟩
  · rw [Except.toOption, Option.some_inj, Except.ok.injEq]

@[simp] theorem toOption_bind (x : Except ε α) (f : α → Except ε β) :
    (x >>= f).toOption = x.toOption.bind fun a ↦ (f a).toOption := by
  cases x with
  | error e => rfl
  | ok a => rfl

@[simp] theorem toOption_mapError (x : Except ε α) (f : ε → ε') :
    (x.mapError f).toOption = x.toOption := by
  cases x with
  | error e => rfl
  | ok a => rfl

end

/-! ## Results with notices -/

namespace Noted

variable {α β : Type}

@[simp] theorem outcome_bind (x : Noted α) (f : α → Noted β) :
    (x >>= f).outcome = x.outcome >>= fun a ↦ (f a).outcome := by
  change (x.andThen f).outcome = _
  rw [andThen]
  cases x.outcome with
  | error fault => rfl
  | ok a => rfl

@[simp] theorem outcome_leave_bind (notices : List Notice) (f : Unit → Noted β) :
    (leave notices >>= f).outcome = (f ()).outcome :=
  outcome_bind _ _

end Noted

end MessageCatalog
