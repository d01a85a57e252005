import FirstFailure.Bytes
import Mathlib.Algebra.Ring.Nat
import Mathlib.Data.List.Induction
/-!
# Reading and writing numbers

`Bytes.ofNat` and `Bytes.toNat` undo each other: writing a number and reading it back keeps what the
width can hold, and reading bytes and writing them back gives the same bytes. The 16-bit and 32-bit
forms lose nothing in either direction, because their numbers fit their bytes.
-/

namespace FirstFailure

namespace Bytes

/-! ## Numbers of any width -/

@[simp] theorem toNat_nil : toNat [] = 0 := rfl

theorem toNat_append_byte (bytes : Bytes) (b : UInt8) :
    toNat (bytes ++ [b]) = toNat bytes * 256 + b.toNat := by
  simp [toNat, List.foldl_append]

@[simp] theorem length_ofNat (width n : Nat) : (ofNat width n).length = width := by
  induction width generalizing n with
  | zero => rfl
  | succ width ih => simp [ofNat, ih]

theorem toNat_lt (bytes : Bytes) : toNat bytes < 256 ^ bytes.length := by
  induction bytes using List.reverseRecOn with
  | nil => simp
  | append_singleton bytes b ih =>
    have hb : b.toNat < 256 := b.toNat_lt
    rw [toNat_append_byte, List.length_append, List.length_singleton, Nat.pow_succ]
    omega

/-- Writing keeps the low digits. -/
theorem toNat_ofNat (width n : Nat) : toNat (ofNat width n) = n % 256 ^ width := by
  induction width generalizing n with
  | zero => simp [ofNat, Nat.mod_one]
  | succ width ih =>
    have hlow : (UInt8.ofNat n).toNat = n % 256 := by simp
    rw [ofNat, toNat_append_byte, ih, hlow, Nat.pow_succ, Nat.mul_comm (256 ^ width),
      Nat.mod_mul]
    omega

/-- Bytes are the only digits of their number. -/
theorem ofNat_toNat (bytes : Bytes) : ofNat bytes.length (toNat bytes) = bytes := by
  induction bytes using List.reverseRecOn with
  | nil => rfl
  | append_singleton bytes b ih =>
    have hb : b.toNat < 256 := b.toNat_lt
    have hhigh : (toNat bytes * 256 + b.toNat) / 256 = toNat bytes := by omega
    have hlow : UInt8.ofNat (toNat bytes * 256 + b.toNat) = b := by
      apply UInt8.toNat_inj.mp
      rw [UInt8.toNat_ofNat']
      omega
    rw [List.length_append, List.length_singleton, toNat_append_byte, ofNat, hhigh, hlow, ih]

/-! ## Numbers of 16 and 32 bits -/

@[simp] theorem length_ofU16 (n : UInt16) : (ofU16 n).length = 2 := length_ofNat 2 n.toNat

@[simp] theorem length_ofU32 (n : UInt32) : (ofU32 n).length = 4 := length_ofNat 4 n.toNat

theorem toNat_toU16 {bytes : Bytes} (h : bytes.length = 2) :
    (toU16 bytes).toNat = toNat bytes := by
  have hlt := toNat_lt bytes
  rw [h] at hlt
  rw [toU16, UInt16.toNat_ofNat']
  omega

theorem toNat_toU32 {bytes : Bytes} (h : bytes.length = 4) :
    (toU32 bytes).toNat = toNat bytes := by
  have hlt := toNat_lt bytes
  rw [h] at hlt
  rw [toU32, UInt32.toNat_ofNat']
  omega

@[simp] theorem toU16_ofU16 (n : UInt16) : toU16 (ofU16 n) = n := by
  apply UInt16.toNat_inj.mp
  have hn : n.toNat < 65536 := n.toNat_lt
  rw [toNat_toU16 (length_ofU16 n), ofU16, toNat_ofNat]
  omega

@[simp] theorem toU32_ofU32 (n : UInt32) : toU32 (ofU32 n) = n := by
  apply UInt32.toNat_inj.mp
  have hn : n.toNat < 4294967296 := n.toNat_lt
  rw [toNat_toU32 (length_ofU32 n), ofU32, toNat_ofNat]
  omega

theorem ofU16_toU16 {bytes : Bytes} (h : bytes.length = 2) : ofU16 (toU16 bytes) = bytes := by
  rw [ofU16, toNat_toU16 h, ← h]
  exact ofNat_toNat bytes

theorem toU16_eq_iff {bytes : Bytes} (h : bytes.length = 2) (n : UInt16) :
    toU16 bytes = n ↔ bytes = ofU16 n := by
  constructor
  · rintro rfl
    exact (ofU16_toU16 h).symm
  · rintro rfl
    exact toU16_ofU16 n

theorem ofU32_toU32 {bytes : Bytes} (h : bytes.length = 4) : ofU32 (toU32 bytes) = bytes := by
  rw [ofU32, toNat_toU32 h, ← h]
  exact ofNat_toNat bytes

end Bytes

end FirstFailure
