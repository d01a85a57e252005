import FirstFailure.Text.Pattern
/-!
# Derivatives decide what matches

A derivative matches what may follow its character, and a pattern is nullable when it matches the
empty text. Taking one derivative for each character of a text therefore decides whether the text
matches: `accepts_iff_matches`.
-/

namespace FirstFailure.Pattern

variable {s : List Char}

/-! ## Matching, by the kind of pattern -/

theorem matches_empty_iff : Matches .empty s ↔ s = [] := by
  constructor
  · rintro ⟨⟩
    rfl
  · rintro rfl
    exact .empty

theorem matches_one_iff {member : Char → Bool} :
    Matches (.one member) s ↔ ∃ c, member c = true ∧ s = [c] := by
  constructor
  · rintro (_ | hmember)
    exact ⟨_, hmember, rfl⟩
  · rintro ⟨c, hmember, rfl⟩
    exact .one hmember

theorem matches_andThen_iff {first second : Pattern} :
    Matches (.andThen first second) s ↔
      ∃ u v, s = u ++ v ∧ Matches first u ∧ Matches second v := by
  constructor
  · rintro (_ | _ | ⟨hfirst, hsecond⟩)
    exact ⟨_, _, rfl, hfirst, hsecond⟩
  · rintro ⟨u, v, rfl, hfirst, hsecond⟩
    exact .andThen hfirst hsecond

theorem matches_either_iff {left right : Pattern} :
    Matches (.either left right) s ↔ Matches left s ∨ Matches right s := by
  constructor
  · intro h
    cases h with
    | left hleft => exact .inl hleft
    | right hright => exact .inr hright
  · exact Or.rec .left .right

/-- The first text of a row that is not empty starts with the first character. -/
theorem matches_star_cons_iff {body : Pattern} {c : Char} :
    Matches (.star body) (c :: s) ↔
      ∃ u v, s = u ++ v ∧ Matches body (c :: u) ∧ Matches (.star body) v := by
  constructor
  · intro h
    generalize hrow : Pattern.star body = row at h
    generalize htext : c :: s = text at h
    induction h with
    | starNil => cases htext
    | @starCons _ u v hu hv _ ihRest =>
      cases hrow
      cases u with
      | nil => exact ihRest rfl htext
      | cons first u =>
        obtain ⟨rfl, rfl⟩ := List.cons.inj htext
        exact ⟨u, v, rfl, hu, hv⟩
    | _ => cases hrow
  · rintro ⟨u, v, rfl, hu, hv⟩
    exact .starCons hu hv

theorem matches_opt_iff {p : Pattern} : Matches p.opt s ↔ s = [] ∨ Matches p s := by
  rw [opt, matches_either_iff, matches_empty_iff]

theorem matches_plus_iff {p : Pattern} (h : ¬Matches p []) :
    Matches p.plus s ↔ s ≠ [] ∧ Matches (.star p) s := by
  rw [plus, matches_andThen_iff]
  constructor
  · rintro ⟨u, v, rfl, hu, hv⟩
    refine ⟨fun hnil => ?_, .starCons hu hv⟩
    exact h ((List.append_eq_nil_iff.mp hnil).1 ▸ hu)
  · rintro ⟨hne, hstar⟩
    cases s with
    | nil => exact absurd rfl hne
    | cons c rest =>
      obtain ⟨u, v, rfl, hu, hv⟩ := matches_star_cons_iff.mp hstar
      exact ⟨c :: u, v, rfl, hu, hv⟩

/-! ## Deciding -/

theorem nullable_iff_matches_nil (p : Pattern) : p.nullable = true ↔ Matches p [] := by
  induction p with
  | never => exact ⟨nofun, nofun⟩
  | empty => exact ⟨fun _ => .empty, fun _ => rfl⟩
  | one member => exact ⟨nofun, nofun⟩
  | andThen first second ihFirst ihSecond =>
    rw [nullable, Bool.and_eq_true, ihFirst, ihSecond, matches_andThen_iff]
    constructor
    · rintro ⟨hfirst, hsecond⟩
      exact ⟨[], [], rfl, hfirst, hsecond⟩
    · rintro ⟨u, v, hnil, hfirst, hsecond⟩
      obtain ⟨rfl, rfl⟩ := List.append_eq_nil_iff.mp hnil.symm
      exact ⟨hfirst, hsecond⟩
  | either left right ihLeft ihRight =>
    rw [nullable, Bool.or_eq_true, ihLeft, ihRight, matches_either_iff]
  | star body _ => exact ⟨fun _ => .starNil, fun _ => rfl⟩

/-- A text of two parts starts in the first part, or in the second when the first is empty. -/
theorem matches_andThen_cons_iff {first second : Pattern} {c : Char} :
    Matches (.andThen first second) (c :: s) ↔
      (∃ u v, s = u ++ v ∧ Matches first (c :: u) ∧ Matches second v) ∨
      Matches first [] ∧ Matches second (c :: s) := by
  rw [matches_andThen_iff]
  constructor
  · rintro ⟨u, v, htext, hfirst, hsecond⟩
    cases u with
    | nil => exact .inr ⟨hfirst, htext ▸ hsecond⟩
    | cons _ u =>
      obtain ⟨rfl, rfl⟩ := List.cons.inj htext
      exact .inl ⟨u, v, rfl, hfirst, hsecond⟩
  · rintro (⟨u, v, rfl, hfirst, hsecond⟩ | ⟨hfirst, hsecond⟩)
    · exact ⟨c :: u, v, rfl, hfirst, hsecond⟩
    · exact ⟨[], c :: s, rfl, hfirst, hsecond⟩

theorem matches_derivative_iff (p : Pattern) (c : Char) :
    Matches (p.derivative c) s ↔ Matches p (c :: s) := by
  induction p generalizing s with
  | never => exact ⟨nofun, nofun⟩
  | empty => exact ⟨nofun, nofun⟩
  | one member =>
    rw [derivative, matches_one_iff]
    by_cases hmember : member c = true
    · rw [if_pos hmember, matches_empty_iff]
      constructor
      · rintro rfl
        exact ⟨c, hmember, rfl⟩
      · rintro ⟨_, -, htext⟩
        exact (List.cons.inj htext).2
    · rw [if_neg hmember]
      refine ⟨nofun, ?_⟩
      rintro ⟨_, hother, htext⟩
      exact absurd ((List.cons.inj htext).1 ▸ hother) hmember
  | andThen first second ihFirst ihSecond =>
    have hsplit : Matches (.andThen (first.derivative c) second) s ↔
        ∃ u v, s = u ++ v ∧ Matches first (c :: u) ∧ Matches second v := by
      simp only [matches_andThen_iff, ihFirst]
    rw [derivative, matches_andThen_cons_iff, ← nullable_iff_matches_nil]
    by_cases hnullable : first.nullable = true
    · rw [if_pos hnullable, matches_either_iff, hsplit, ihSecond, hnullable]
      simp only [true_and]
    · rw [if_neg hnullable, hsplit, or_iff_left fun h => hnullable h.1]
  | either left right ihLeft ihRight =>
    rw [derivative, matches_either_iff, matches_either_iff, ihLeft, ihRight]
  | star body ih =>
    simp only [derivative, matches_andThen_iff, matches_star_cons_iff, ih]

/-- A text is accepted exactly when it matches as a whole. -/
theorem accepts_iff_matches (p : Pattern) (text : List Char) :
    p.accepts text = true ↔ Matches p text := by
  induction text generalizing p with
  | nil => rw [accepts, nullable_iff_matches_nil]
  | cons c rest ih => rw [accepts, ih, matches_derivative_iff]

end FirstFailure.Pattern
