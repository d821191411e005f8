import RequestAuth.Failure

namespace RequestAuth

variable {α β ε : Type} {x : Except Failure α} {y : Except ε α}

theorem exists_of_bind_eq_ok {f : α → Except ε β} {b : β} (h : y >>= f = .ok b) :
    ∃ a, y = .ok a ∧ f a = .ok b := by
  cases y with
  | error fault => cases h
  | ok a => exact ⟨a, rfl, h⟩

theorem exists_of_map_eq_ok {f : α → β} {b : β} (h : f <$> y = .ok b) :
    ∃ a, y = .ok a ∧ f a = b := by
  cases y with
  | error fault => cases h
  | ok a => exact ⟨a, rfl, Except.ok.inj h⟩

theorem eq_ok_of_toOption {a : α} (h : y.toOption = some a) : y = .ok a := by
  cases y with
  | error fault => cases h
  | ok own => exact congrArg Except.ok (Option.some.inj h)

theorem error_of_bind_eq_error {f : α → Except Failure β} {failure : Failure}
    (h : x >>= f = .error failure) :
    x = .error failure ∨ ∃ a, x = .ok a ∧ f a = .error failure := by
  cases x with
  | error own => exact .inl (congrArg Except.error (Except.error.inj h))
  | ok a => exact .inr ⟨a, rfl, h⟩

theorem eq_error_of_map_eq_error {f : α → β} {failure : Failure} (h : f <$> x = .error failure) :
    x = .error failure := by
  cases x with
  | error own => exact congrArg Except.error (Except.error.inj h)
  | ok a => cases h

theorem eq_ok_of_mapError_eq_ok {δ : Type} {f : ε → δ} {a : α} (h : y.mapError f = .ok a) :
    y = .ok a := by
  cases y with
  | error fault => cases h
  | ok own => exact congrArg Except.ok (Except.ok.inj h)

theorem exists_of_mapError_eq_error {δ : Type} {f : ε → δ} {d : δ} (h : y.mapError f = .error d) :
    ∃ fault, y = .error fault ∧ f fault = d := by
  cases y with
  | error fault => exact ⟨fault, rfl, Except.error.inj h⟩
  | ok a => cases h

theorem exists_error_iff :
    (∃ fault, y = .error fault) ↔ ∀ a, y ≠ .ok a := by
  cases y with
  | error fault => exact iff_of_true ⟨fault, rfl⟩ nofun
  | ok a => exact iff_of_false nofun fun h ↦ h a rfl

theorem eq_of_toList_eq {a b : Option α} (h : a.toList = b.toList) : a = b := by
  have hh := congrArg List.head? h
  rwa [Option.head?_toList, Option.head?_toList] at hh

/-- The outcome is a failure just if there is a fault, and then it tells of that one. -/
def FailsOf (outcome : Except Failure α) (fault? : Option Failure) : Prop :=
  ∀ failure, outcome = .error failure ↔ fault? = some failure

namespace FailsOf

theorem of_ok {a : α} (h : x = .ok a) : FailsOf x none := by
  subst h
  intro failure
  exact iff_of_false nofun nofun

theorem of_error {own : Failure} (h : x = .error own) : FailsOf x (some own) := by
  subst h
  intro failure
  rw [Except.error.injEq, Option.some.injEq]

theorem exists_ok (h : FailsOf x none) : ∃ a, x = .ok a := by
  cases x with
  | error failure => cases (h failure).1 rfl
  | ok a => exact ⟨a, rfl⟩

theorem bind {f : α → Except Failure β} {first second : Option Failure} (h : FailsOf x first)
    (hf : ∀ a, x = .ok a → FailsOf (f a) second) : FailsOf (x >>= f) (first.or second) := by
  cases x with
  | error own =>
    rw [(h own).1 rfl]
    exact of_error rfl
  | ok a =>
    cases first with
    | some own => cases (h own).2 rfl
    | none => exact hf a rfl

theorem map {fault? : Option Failure} (h : FailsOf x fault?) (f : α → β) :
    FailsOf (f <$> x) fault? := by
  rw [← Option.or_none (o := fault?)]
  exact h.bind (fun a _ ↦ of_ok rfl)

end FailsOf

end RequestAuth
