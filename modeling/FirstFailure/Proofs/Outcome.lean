/-!
# Results of computations in steps

A computation in steps has a result exactly when each of its steps has one. Readers are taken apart
by these rules, step by step, and not by cases on all that may go wrong.
-/

namespace FirstFailure.Outcome

variable {ε ε' α β : Type}

theorem bind_eq_ok_iff {first : Except ε α} {next : α → Except ε β} {result : β} :
    first >>= next = .ok result ↔ ∃ value, first = .ok value ∧ next value = .ok result := by
  cases first with
  | error e => simp [bind, Except.bind]
  | ok value => simp [bind, Except.bind]

theorem map_eq_ok_iff {first : Except ε α} {f : α → β} {result : β} :
    first.map f = .ok result ↔ ∃ value, first = .ok value ∧ f value = result := by
  cases first with
  | error e => simp [Except.map]
  | ok value => simp [Except.map]

theorem mapError_eq_ok_iff {first : Except ε α} {f : ε → ε'} {result : α} :
    first.mapError f = .ok result ↔ first = .ok result := by
  constructor
  · intro h
    cases first with
    | error e => cases h
    | ok value =>
      cases h
      rfl
  · rintro rfl
    rfl

theorem map_mapError (first : Except ε α) (f : α → β) (g : ε → ε') :
    (first.mapError g).map f = (first.map f).mapError g := by
  cases first with
  | error e => rfl
  | ok value => rfl

theorem toOption_eq_some_iff {first : Except ε α} {value : α} :
    first.toOption = some value ↔ first = .ok value := by
  cases first with
  | error e => simp [Except.toOption]
  | ok value => simp [Except.toOption]

end FirstFailure.Outcome
