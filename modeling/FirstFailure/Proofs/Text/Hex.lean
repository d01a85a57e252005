import FirstFailure.Proofs.Bytes
import FirstFailure.Target.HexPath
/-!
# Hexadecimal text is read back

Two digits are written for each byte, so a dump of bytes is a row of digit pairs, and so are the
digits of a number of whole bytes. Reading a row of digit pairs as a path gives the bytes back,
with a prefix or without: no digit is taken for the prefix. The spaces between the words of a dump
are all that has to be left out first.
-/

namespace FirstFailure

namespace Hex

theorem digitValue?_digit (letters : Case) {value : Nat} (h : value < 16) :
    digitValue? (digit letters value) = some value := by
  have hall : ∀ letters, ∀ value < 16, digitValue? (digit letters value) = some value := by
    intro letters
    cases letters <;> decide +kernel
  exact hall letters value h

theorem isDigit_digit (letters : Case) {value : Nat} (h : value < 16) :
    isDigit (digit letters value) = true := by
  rw [isDigit, digitValue?_digit letters h]
  rfl

theorem isDigit_of_mem_digits {letters : Case} {width n : Nat} {c : Char}
    (h : c ∈ digits letters width n) : isDigit c = true := by
  induction width generalizing n with
  | zero => simp [digits] at h
  | succ width ih =>
    rw [digits, List.mem_append, List.mem_singleton] at h
    rcases h with h | rfl
    · exact ih h
    · exact isDigit_digit letters (Nat.mod_lt n (by decide))

@[simp] theorem length_digits (letters : Case) (width n : Nat) :
    (digits letters width n).length = width := by
  induction width generalizing n with
  | zero => rfl
  | succ width ih => simp [digits, ih]

theorem byteDigits_eq (letters : Case) (byte : UInt8) :
    byteDigits letters byte
      = [digit letters (byte.toNat / 16), digit letters (byte.toNat % 16)] := by
  have hbyte : byte.toNat < 256 := byte.toNat_lt
  have hhigh : byte.toNat / 16 % 16 = byte.toNat / 16 := Nat.mod_eq_of_lt (by omega)
  simp [byteDigits, digits, hhigh]

theorem dump_cons (letters : Case) (byte : UInt8) (rest : Bytes) :
    dump letters (byte :: rest)
      = digit letters (byte.toNat / 16) :: digit letters (byte.toNat % 16)
        :: dump letters rest := by
  rw [dump, List.flatMap_cons, byteDigits_eq]
  rfl

@[simp] theorem dump_append (letters : Case) (bytes others : Bytes) :
    dump letters (bytes ++ others) = dump letters bytes ++ dump letters others :=
  List.flatMap_append

theorem isDigit_of_mem_dump {letters : Case} {bytes : Bytes} {c : Char}
    (h : c ∈ dump letters bytes) : isDigit c = true := by
  obtain ⟨byte, -, hc⟩ := List.mem_flatMap.mp h
  exact isDigit_of_mem_digits hc

theorem length_dump (letters : Case) (bytes : Bytes) :
    (dump letters bytes).length = 2 * bytes.length := by
  induction bytes with
  | nil => rfl
  | cons byte rest ih =>
    rw [dump_cons, List.length_cons, List.length_cons, ih, List.length_cons]
    omega

/-- The digits of a number of whole bytes are those of its bytes. -/
theorem digits_eq_dump (letters : Case) (width n : Nat) :
    digits letters (2 * width) n = dump letters (Bytes.ofNat width n) := by
  induction width generalizing n with
  | zero => rfl
  | succ width ih =>
    have hbyte : (UInt8.ofNat n).toNat = n % 256 := UInt8.toNat_ofNat
    have hhigh : n % 256 / 16 = n / 16 % 16 := by omega
    have hlow : n % 256 % 16 = n % 16 := by omega
    have hrest : n / 16 / 16 = n / 256 := by omega
    rw [show 2 * (width + 1) = 2 * width + 1 + 1 by omega, digits, digits, hrest, ih,
      Bytes.ofNat, dump_append, dump_cons, hbyte, hhigh, hlow, List.append_assoc]
    rfl

/-- A text without its spaces. -/
def withoutSpaces (text : String) : String := String.ofList (text.toList.filter (· ≠ ' '))

theorem filter_dump (letters : Case) (bytes : Bytes) :
    (dump letters bytes).filter (· ≠ ' ') = dump letters bytes := by
  rw [List.filter_eq_self]
  intro c hc
  have hdigit := isDigit_of_mem_dump hc
  have hspace : isDigit ' ' = false := by decide
  simp only [ne_eq, decide_not, Bool.not_eq_true', decide_eq_false_iff_not]
  rintro rfl
  rw [hspace] at hdigit
  cases hdigit

/-- The spaces of a word dump are all between digits. -/
theorem filter_wordDump (bytes : Bytes) :
    (wordDump bytes).filter (· ≠ ' ') = dump .upper bytes := by
  fun_induction wordDump bytes with
  | case1 a b c d e rest ih =>
    rw [List.filter_append, filter_dump, List.filter_cons_of_neg (by decide), ih, ← dump_append]
    rfl
  | case2 bytes _ => exact filter_dump .upper bytes

end Hex

namespace HexPath

open Hex

theorem bytesOfPairs_dump (letters : Case) (bytes : Bytes) :
    bytesOfPairs (dump letters bytes) = bytes := by
  induction bytes with
  | nil => rfl
  | cons byte rest ih =>
    have hbyte : byte.toNat < 256 := byte.toNat_lt
    have hvalue : byte.toNat / 16 * 16 + byte.toNat % 16 = byte.toNat := by omega
    rw [dump_cons, bytesOfPairs, ih, digitValue?_digit letters (by omega : byte.toNat / 16 < 16),
      digitValue?_digit letters (Nat.mod_lt _ (by decide)), Option.getD_some, Option.getD_some,
      hvalue, UInt8.ofNat_toNat]

/-- Digits are not taken for a prefix. -/
theorem body_of_digits {text : List Char} (h : ∀ c ∈ text, isDigit c = true) :
    body text = text := by
  unfold body
  split
  next rest => exact absurd (h 'x' (by simp)) (by decide)
  next rest => exact absurd (h 'X' (by simp)) (by decide)
  next => rfl

/-- Behind its prefix a path is read from the digit pairs of its bytes. -/
theorem parse_of_body {text : String} (letters : Case) {bytes : Bytes} (hne : bytes ≠ [])
    (h : body text.toList = dump letters bytes) : parse text = .ok bytes := by
  have hdigits : dump letters bytes ≠ [] := by
    intro hnil
    have hlength := length_dump letters bytes
    rw [hnil] at hlength
    exact hne (List.eq_nil_of_length_eq_zero (by simpa using hlength.symm))
  have hfind : (dump letters bytes).find? (fun c => !isDigit c) = none := by
    rw [List.find?_eq_none]
    intro c hc
    simp [isDigit_of_mem_dump hc]
  have heven : (dump letters bytes).length % 2 = 0 := by
    rw [length_dump]
    omega
  unfold parse
  simp only [h, if_neg hdigits, hfind, if_pos heven, bytesOfPairs_dump]

theorem parse_dump (letters : Case) {bytes : Bytes} (hne : bytes ≠ []) :
    parse (String.ofList (dump letters bytes)) = .ok bytes := by
  apply parse_of_body letters hne
  rw [String.toList_ofList, body_of_digits fun c hc => isDigit_of_mem_dump hc]

theorem parse_withoutSpaces_wordDump {bytes : Bytes} (hne : bytes ≠ []) :
    parse (withoutSpaces (String.ofList (wordDump bytes))) = .ok bytes := by
  rw [withoutSpaces, String.toList_ofList, filter_wordDump]
  exact parse_dump .upper hne

/-- A prefixed number of 32 bits is the path of its bytes. -/
theorem parse_prefixed (letters : Case) (n : UInt32) :
    parse ("0x" ++ padded letters 8 n.toNat) = .ok (Bytes.ofU32 n) := by
  have hne : Bytes.ofU32 n ≠ [] := by
    intro hnil
    have hlength := Bytes.length_ofU32 n
    simp [hnil] at hlength
  apply parse_of_body letters hne
  rw [padded, digits_eq_dump letters 4, String.toList_append, String.toList_ofList (l := dump _ _)]
  rfl

end HexPath

end FirstFailure
