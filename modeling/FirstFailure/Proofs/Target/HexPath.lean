import FirstFailure.Proofs.Text.Hex
import FirstFailure.Proofs.Text.Pattern
/-!
# The pattern of paths says which texts are paths

A text spells a path when pairs of digits, and at least one pair, follow its optional prefix. The
pattern says the same: no digit pair starts with a prefix, so what the pattern takes for a prefix
and what the reader takes off is the same.
-/

namespace FirstFailure.HexPath

open Hex Pattern

/-! ## Texts that are read -/

/-- Digits in pairs, and at least one pair. -/
structure DigitPairs (digits : List Char) : Prop where
  nonempty : digits ≠ []
  digit : ∀ c ∈ digits, isDigit c = true
  even : digits.length % 2 = 0

theorem parse_eq_ok_iff {text : String} {path : Bytes} :
    parse text = .ok path ↔
      DigitPairs (body text.toList) ∧ path = bytesOfPairs (body text.toList) := by
  unfold parse
  simp only
  constructor
  · intro h
    split at h
    next => cases h
    next hne =>
      split at h
      next => cases h
      next hfind =>
        split at h
        next heven =>
          cases h
          exact ⟨⟨hne, by simpa using hfind, heven⟩, rfl⟩
        next => cases h
  · rintro ⟨⟨hne, hdigit, heven⟩, rfl⟩
    have hfind : (body text.toList).find? (fun c => !isDigit c) = none := by simpa using hdigit
    simp only [if_neg hne, hfind, if_pos heven]

theorem exists_parse_iff {text : String} :
    (∃ path, parse text = .ok path) ↔ DigitPairs (body text.toList) := by
  simp only [parse_eq_ok_iff, exists_and_left, exists_eq, and_true]

theorem parse_ne_nil {text : String} {path : Bytes} (h : parse text = .ok path) : path ≠ [] := by
  obtain ⟨hpairs, rfl⟩ := parse_eq_ok_iff.mp h
  match hbody : body text.toList with
  | [] => exact absurd hbody hpairs.nonempty
  | [_] => simpa [hbody] using hpairs.even
  | _ :: _ :: _ => simp [bytesOfPairs]

/-! ## Texts that match -/

theorem isDigit_iff_toNat (c : Char) :
    isDigit c = true ↔
      48 ≤ c.toNat ∧ c.toNat ≤ 57 ∨ 97 ≤ c.toNat ∧ c.toNat ≤ 102 ∨
        65 ≤ c.toNat ∧ c.toNat ≤ 70 := by
  have hle : ∀ a b : Char, a ≤ b ↔ a.toNat ≤ b.toNat := fun _ _ => Iff.rfl
  simp only [isDigit, digitValue?, hle, apply_ite Option.isSome, Option.isSome_some,
    Option.isSome_none, Bool.if_true_left, Bool.if_false_right, Bool.and_true, Bool.or_eq_true,
    decide_eq_true_iff]
  exact Iff.rfl

/-- The class of digits has the characters that have a value. -/
theorem anyOf_digitClass_iff (c : Char) : anyOf digitClass c = true ↔ isDigit c = true := by
  have hmem : c ∈ digitClass ↔ c.toNat ∈ digitClass.map Char.toNat := by
    rw [List.mem_map]
    constructor
    · exact fun h => ⟨c, h, rfl⟩
    · rintro ⟨d, hd, heq⟩
      exact Char.toNat_inj.mp heq ▸ hd
  rw [anyOf, List.contains_iff_mem, hmem, isDigit_iff_toNat]
  simp [digitClass]
  omega

/-- Two digits. -/
def digitPair : Pattern := .andThen (.one (anyOf digitClass)) (.one (anyOf digitClass))

theorem matches_digitPair_iff {s : List Char} :
    Matches digitPair s ↔
      ∃ high low, s = [high, low] ∧ isDigit high = true ∧ isDigit low = true := by
  simp only [digitPair, matches_andThen_iff, matches_one_iff, anyOf_digitClass_iff]
  constructor
  · rintro ⟨_, _, rfl, ⟨high, hhigh, rfl⟩, low, hlow, rfl⟩
    exact ⟨high, low, rfl, hhigh, hlow⟩
  · rintro ⟨high, low, rfl, hhigh, hlow⟩
    exact ⟨[high], [low], rfl, ⟨high, hhigh, rfl⟩, low, hlow, rfl⟩

theorem matches_star_digitPair_iff :
    ∀ s, Matches (.star digitPair) s ↔ (∀ c ∈ s, isDigit c = true) ∧ s.length % 2 = 0
  | [] => by simpa using Matches.starNil
  | [c] => by simp [matches_star_cons_iff, matches_digitPair_iff]
  | high :: low :: rest => by
    have hrest := matches_star_digitPair_iff rest
    rw [matches_star_cons_iff]
    constructor
    · rintro ⟨u, v, htext, hpair, hstar⟩
      obtain ⟨_, _, hu, hhigh, hlow⟩ := matches_digitPair_iff.mp hpair
      obtain ⟨rfl, rfl⟩ := List.cons.inj hu
      obtain ⟨rfl, rfl⟩ := List.cons.inj htext
      obtain ⟨hdigit, heven⟩ := hrest.mp hstar
      refine ⟨by simpa [hhigh, hlow] using hdigit, ?_⟩
      rw [List.length_cons, List.length_cons]
      omega
    · rintro ⟨hdigit, heven⟩
      rw [List.forall_mem_cons, List.forall_mem_cons] at hdigit
      rw [List.length_cons, List.length_cons] at heven
      refine ⟨[low], rest, rfl, ?_, hrest.mpr ⟨hdigit.2.2, by omega⟩⟩
      exact matches_digitPair_iff.mpr ⟨high, low, rfl, hdigit.1, hdigit.2.1⟩

theorem matches_plus_digitPair_iff {s : List Char} :
    Matches digitPair.plus s ↔ DigitPairs s := by
  have hnil : ¬Matches digitPair [] := by simp [matches_digitPair_iff]
  rw [matches_plus_iff hnil, matches_star_digitPair_iff]
  exact ⟨fun ⟨hne, hdigit, heven⟩ => ⟨hne, hdigit, heven⟩,
    fun h => ⟨h.nonempty, h.digit, h.even⟩⟩

/-- The optional prefix. -/
def hexPrefix : Pattern := .opt (.andThen (.one (anyOf ['0'])) (.one (anyOf ['x', 'X'])))

theorem matches_hexPrefix_iff {s : List Char} :
    Matches hexPrefix s ↔ s = [] ∨ s = ['0', 'x'] ∨ s = ['0', 'X'] := by
  have hmember : ∀ members c, anyOf members c = true ↔ c ∈ members :=
    fun _ _ => List.contains_iff_mem
  rw [hexPrefix, matches_opt_iff, matches_andThen_iff]
  simp only [matches_one_iff, hmember, List.mem_cons, List.not_mem_nil, or_false]
  constructor
  · rintro (rfl | ⟨_, _, rfl, ⟨_, rfl, rfl⟩, _, rfl | rfl, rfl⟩)
    · exact .inl rfl
    · exact .inr (.inl rfl)
    · exact .inr (.inr rfl)
  · rintro (rfl | rfl | rfl)
    · exact .inl rfl
    · exact .inr ⟨_, _, rfl, ⟨_, rfl, rfl⟩, _, .inl rfl, rfl⟩
    · exact .inr ⟨_, _, rfl, ⟨_, rfl, rfl⟩, _, .inr rfl, rfl⟩

/-- What is taken off is a prefix. -/
theorem exists_prefix (s : List Char) : ∃ u, Matches hexPrefix u ∧ s = u ++ body s := by
  unfold body
  split
  next rest => exact ⟨_, matches_hexPrefix_iff.mpr (.inr (.inl rfl)), rfl⟩
  next rest => exact ⟨_, matches_hexPrefix_iff.mpr (.inr (.inr rfl)), rfl⟩
  next => exact ⟨[], matches_hexPrefix_iff.mpr (.inl rfl), rfl⟩

/-- The pattern matches a text exactly when digit pairs follow its prefix. -/
theorem matches_pattern_iff (s : List Char) : Matches pattern s ↔ DigitPairs (body s) := by
  show Matches (.andThen hexPrefix digitPair.plus) s ↔ _
  rw [matches_andThen_iff]
  constructor
  · rintro ⟨u, v, rfl, hu, hv⟩
    have hpairs := matches_plus_digitPair_iff.mp hv
    rcases matches_hexPrefix_iff.mp hu with rfl | rfl | rfl
    · rw [List.nil_append, body_of_digits hpairs.digit]
      exact hpairs
    · exact hpairs
    · exact hpairs
  · intro h
    obtain ⟨u, hu, htext⟩ := exists_prefix s
    exact ⟨u, body s, htext, hu, matches_plus_digitPair_iff.mpr h⟩

/-- The pattern accepts a text exactly when the text spells a path. -/
theorem accepts_pattern_iff (text : String) :
    pattern.accepts text.toList = true ↔ ∃ path, parse text = .ok path := by
  rw [accepts_iff_matches, matches_pattern_iff, exists_parse_iff]

end FirstFailure.HexPath
