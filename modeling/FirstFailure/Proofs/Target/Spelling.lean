import FirstFailure.Proofs.Target.HexPath
/-!
# Paths are read from their spellings

A spelling of a path has the two digits of each byte in either case, behind a prefix or without one.
Every spelling of a path is read as that path, and a text that is read is a spelling of what was
read. Of any other text the reader tells what is wrong first: nothing behind the prefix, or the
first character that is no digit, or else how many digits there are.
-/

namespace FirstFailure

namespace Hex

/-! ## The case of digits -/

/-- The value of a digit of either case, written again, is the digit in lower case. -/
theorem digit_digitValue? {c : Char} (h : isDigit c = true) :
    digit .lower ((digitValue? c).getD 0) = c.toLower ∧ (digitValue? c).getD 0 < 16 := by
  have hall : HexPath.digitClass.all (fun c =>
      digit .lower ((digitValue? c).getD 0) = c.toLower ∧ (digitValue? c).getD 0 < 16) = true := by
    decide +kernel
  have hmem : c ∈ HexPath.digitClass :=
    List.contains_iff_mem.mp ((HexPath.anyOf_digitClass_iff c).mpr h)
  exact of_decide_eq_true (List.all_eq_true.mp hall c hmem)

/-- The halves of a byte are the values that it was made of. -/
theorem halves_ofNat {high low : Nat} (hhigh : high < 16) (hlow : low < 16) :
    (UInt8.ofNat (high * 16 + low)).toNat / 16 = high ∧
      (UInt8.ofNat (high * 16 + low)).toNat % 16 = low := by
  have hbyte : (UInt8.ofNat (high * 16 + low)).toNat = high * 16 + low := by
    rw [UInt8.toNat_ofNat', Nat.mod_eq_of_lt (by omega)]
  omega

theorem isDigit_of_toLower {c : Char} (h : isDigit c.toLower = true) : isDigit c = true := by
  rw [HexPath.isDigit_iff_toNat] at h ⊢
  by_cases hupper : 65 ≤ c.toNat ∧ c.toNat ≤ 90
  · have hlower : c.toLower.toNat = c.toNat + 32 := by
      have hval : c.toLower.val = c.val + 32 := by
        unfold Char.toLower
        exact congrArg Char.val (dif_pos hupper)
      have hsum : (c.val + 32).toNat = (c.val.toNat + 32) % 4294967296 := UInt32.toNat_add _ _
      show c.toLower.val.toNat = c.val.toNat + 32
      have hsmall : c.val.toNat ≤ 90 := hupper.2
      rw [hval, hsum, Nat.mod_eq_of_lt (by omega)]
    omega
  · have hsame : c.toLower = c := by
      unfold Char.toLower
      exact dif_neg hupper
    rwa [hsame] at h

end Hex

namespace HexPath

open Hex Pattern

/-! ## The digits of a text -/

/-- What may stand in front of the digits. -/
def prefixes : List (List Char) := [[], ['0', 'x'], ['0', 'X']]

/-- A text is a prefix and what follows it. No longer prefix stands at its front. -/
structure Cut (text front digits : List Char) : Prop where
  known : front ∈ prefixes
  covers : text = front ++ digits
  longest : ∀ other ∈ prefixes, other <+: text → other.length ≤ front.length

theorem length_le_of_mem_prefixes {front : List Char} (h : front ∈ prefixes) :
    front.length ≤ 2 := by
  simp only [prefixes, List.mem_cons, List.not_mem_nil, or_false] at h
  rcases h with rfl | rfl | rfl <;> decide

theorem exists_cut (text : List Char) : ∃ front, Cut text front (body text) := by
  unfold body
  split
  next rest =>
    exact ⟨['0', 'x'], by decide, rfl, fun other hother _ => length_le_of_mem_prefixes hother⟩
  next rest =>
    exact ⟨['0', 'X'], by decide, rfl, fun other hother _ => length_le_of_mem_prefixes hother⟩
  next hlower hupper =>
    refine ⟨[], by decide, rfl, fun other hother hfront => ?_⟩
    simp only [prefixes, List.mem_cons, List.not_mem_nil, or_false] at hother
    obtain ⟨rest, rfl⟩ := hfront
    rcases hother with rfl | rfl | rfl
    · exact Nat.le_refl _
    · exact absurd rfl (hlower rest)
    · exact absurd rfl (hupper rest)

/-- A prefix is taken off where digits follow it. -/
theorem body_append {front digits : List Char} (h : front ∈ prefixes)
    (hdigits : ∀ c ∈ digits, isDigit c = true) : body (front ++ digits) = digits := by
  simp only [prefixes, List.mem_cons, List.not_mem_nil, or_false] at h
  rcases h with rfl | rfl | rfl
  · exact body_of_digits hdigits
  · rfl
  · rfl

/-! ## Texts that are read -/

/-- Writing the bytes of digit pairs gives the digits back in lower case. -/
theorem dump_bytesOfPairs :
    ∀ digits, (∀ c ∈ digits, isDigit c = true) → digits.length % 2 = 0 →
      dump .lower (bytesOfPairs digits) = digits.map Char.toLower
  | [], _, _ => rfl
  | [_], _, heven => by simp at heven
  | high :: low :: rest, hdigit, heven => by
    rw [List.forall_mem_cons, List.forall_mem_cons] at hdigit
    obtain ⟨hhigh, hhighValue⟩ := digit_digitValue? hdigit.1
    obtain ⟨hlow, hlowValue⟩ := digit_digitValue? hdigit.2.1
    obtain ⟨hupperHalf, hlowerHalf⟩ := halves_ofNat hhighValue hlowValue
    rw [List.length_cons, List.length_cons] at heven
    have hrest := dump_bytesOfPairs rest hdigit.2.2 (by omega)
    rw [bytesOfPairs, dump_cons, hupperHalf, hlowerHalf, hhigh, hlow, hrest]
    rfl

/-- The digits of a path that was read are those of the text, but for their case. -/
theorem dump_of_parse {text : String} {path : Bytes} (h : parse text = .ok path) :
    dump .lower path = (body text.toList).map Char.toLower := by
  obtain ⟨hpairs, rfl⟩ := parse_eq_ok_iff.mp h
  exact dump_bytesOfPairs _ hpairs.digit hpairs.even

/-- Every spelling of a path is read as the path. -/
theorem parse_spelling {front digits : List Char} {path : Bytes} (hpath : path ≠ [])
    (hfront : front ∈ prefixes) (h : digits.map Char.toLower = dump .lower path) :
    parse (String.ofList (front ++ digits)) = .ok path := by
  have hlength : digits.length = 2 * path.length := by
    rw [← length_dump .lower path, ← h, List.length_map]
  have hdigit : ∀ c ∈ digits, isDigit c = true := by
    intro c hc
    have hdump : c.toLower ∈ dump .lower path := h ▸ List.mem_map_of_mem hc
    exact isDigit_of_toLower (isDigit_of_mem_dump hdump)
  have hne : digits ≠ [] := by
    rintro rfl
    exact hpath (List.eq_nil_of_length_eq_zero (by simpa using hlength.symm))
  have hsame : bytesOfPairs digits = path := by
    have hdump := (dump_bytesOfPairs digits hdigit (by omega)).trans h
    rw [← bytesOfPairs_dump .lower (bytesOfPairs digits), hdump, bytesOfPairs_dump]
  rw [parse_eq_ok_iff, String.toList_ofList, body_append hfront hdigit]
  exact ⟨⟨hne, hdigit, by omega⟩, hsame.symm⟩

/-! ## Texts that are not read -/

/-- What is wrong with the part of a text that should be digit pairs. -/
inductive Wrong (digits : List Char) : (reason : String) → Prop where
  | empty : digits = [] → Wrong digits "empty path"
  | notHexDigit {before after : List Char} {c : Char} :
      digits = before ++ c :: after → (∀ d ∈ before, isDigit d = true) → isDigit c = false →
      Wrong digits ("'" ++ String.singleton c ++ "' is not a hex digit")
  | oddCount : (∀ c ∈ digits, isDigit c = true) → digits.length % 2 = 1 →
      Wrong digits ("odd number of hex digits (" ++ toString digits.length ++ ")")

theorem wrong_of_parse {text : String} {fault : Fault} (h : parse text = .error fault) :
    Wrong (body text.toList) fault.message := by
  unfold parse at h
  simp only at h
  split at h
  next hempty =>
    cases h
    exact .empty hempty
  next hne =>
    split at h
    next c hfind =>
      cases h
      obtain ⟨hc, before, after, hdigits, hbefore⟩ := List.find?_eq_some_iff_append.mp hfind
      exact .notHexDigit hdigits (by simpa using hbefore) (by simpa using hc)
    next hfind =>
      split at h
      next => cases h
      next hodd =>
        cases h
        exact .oddCount (by simpa using hfind) (by omega)

theorem parse_of_wrong {text reason : String} (h : Wrong (body text.toList) reason) :
    ∃ fault, parse text = .error fault ∧ fault.message = reason := by
  unfold parse
  cases h with
  | empty hempty => exact ⟨.empty, if_pos hempty, rfl⟩
  | @notHexDigit before after c hdigits hbefore hc =>
    have hne : body text.toList ≠ [] := by simp [hdigits]
    have hfind : (body text.toList).find? (fun c => !isDigit c) = some c := by
      rw [List.find?_eq_some_iff_append]
      exact ⟨by simp [hc], before, after, hdigits, by simpa using hbefore⟩
    refine ⟨.notHexDigit c, ?_, rfl⟩
    simp only [if_neg hne, hfind]
  | oddCount hdigit hodd =>
    have hne : body text.toList ≠ [] := by
      intro hnil
      rw [hnil] at hodd
      cases hodd
    have hfind : (body text.toList).find? (fun c => !isDigit c) = none := by simpa using hdigit
    have hcount : ¬(body text.toList).length % 2 = 0 := by omega
    refine ⟨.oddCount (body text.toList).length, ?_, rfl⟩
    simp only [if_neg hne, hfind, if_neg hcount]

/-- A text is read exactly when it matches the pattern. What is read then is not empty, has one byte
for each digit pair, and written in lower case it is the digits of the text in lower case. Every
spelling of a path is read as the path, whatever the prefix and the case of each digit. A text that
is not read has nothing behind its prefix, or a first character there that is no digit, or else an
odd number of digits, and the reason given says which. -/
theorem parse_reads_spellings :
    (∀ text : String, ∃ front digits, Cut text.toList front digits ∧
      ((∃ path, parse text = .ok path) ↔ Matches pattern text.toList) ∧
      (∀ path, parse text = .ok path →
        path ≠ [] ∧ digits.length = 2 * path.length ∧
          dump .lower path = digits.map Char.toLower) ∧
      ∀ reason, (∃ fault, parse text = .error fault ∧ fault.message = reason) ↔
        Wrong digits reason) ∧
    ∀ (path : Bytes) (front digits : List Char), path ≠ [] → front ∈ prefixes →
      digits.map Char.toLower = dump .lower path →
      parse (String.ofList (front ++ digits)) = .ok path := by
  refine ⟨fun text => ?_, fun path front digits => parse_spelling⟩
  obtain ⟨front, hcut⟩ := exists_cut text.toList
  refine ⟨front, body text.toList, hcut, ?_, ?_, ?_⟩
  · rw [matches_pattern_iff, exists_parse_iff]
  · intro path h
    have hdump := dump_of_parse h
    refine ⟨parse_ne_nil h, ?_, hdump⟩
    rw [← length_dump .lower path, hdump, List.length_map]
  · intro reason
    constructor
    · rintro ⟨fault, h, rfl⟩
      exact wrong_of_parse h
    · exact parse_of_wrong

/-- Two bytes spelled with digits of both cases behind a prefix in upper case. -/
theorem parse_reads_spellings_mixed :
    (([0x0A, 0xBC] : Bytes) ≠ [] ∧ ['0', 'X'] ∈ prefixes ∧
      "0aBc".toList.map Char.toLower = dump .lower [0x0A, 0xBC]) ∧
    parse (String.ofList (['0', 'X'] ++ "0aBc".toList)) = .ok [0x0A, 0xBC] := by
  have hpath : ([0x0A, 0xBC] : Bytes) ≠ [] := by decide
  have hfront : ['0', 'X'] ∈ prefixes := by decide
  have hdigits : "0aBc".toList.map Char.toLower = dump .lower [0x0A, 0xBC] := by decide +kernel
  exact ⟨⟨hpath, hfront, hdigits⟩, parse_reads_spellings.2 _ _ _ hpath hfront hdigits⟩

end HexPath

end FirstFailure
