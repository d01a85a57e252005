import FirstFailure.Json.Reading
/-!
# Readers undo writers

`Json.Undoes read write` says that whatever `write` makes of a value, `read` gives the value back.
The laws below follow the ways in which documents are put together, so that the law of a record is
had from those of its fields.
-/

namespace FirstFailure.Json

variable {α : Type}

/-- A reader that gives back every value from what is written of it. -/
def Undoes (read : Json → Option α) (write : α → Json) : Prop :=
  ∀ value, read (write value) = some value

/-! ## Values -/

theorem undoes_string : Undoes string? str := fun _ => rfl

theorem undoes_bool : Undoes bool? bool := fun _ => rfl

theorem undoes_pair : Undoes pair? ofPair := fun _ => rfl

theorem natBelow?_ofNat {n bound : Nat} (h : n < bound) :
    natBelow? bound (ofNat n) = some n := by
  have hrange : 0 ≤ (n : Int) ∧ (n : Int) < bound := by omega
  rw [ofNat, natBelow?, if_pos hrange, Int.toNat_natCast]

theorem undoes_uint8 : Undoes uint8? (fun n => ofNat n.toNat) := by
  intro n
  rw [uint8?, natBelow?_ofNat n.toNat_lt, Option.map_some, UInt8.ofNat_toNat]

theorem undoes_uint16 : Undoes uint16? (fun n => ofNat n.toNat) := by
  intro n
  rw [uint16?, natBelow?_ofNat n.toNat_lt, Option.map_some, UInt16.ofNat_toNat]

theorem undoes_uint32 : Undoes uint32? (fun n => ofNat n.toNat) := by
  intro n
  rw [uint32?, natBelow?_ofNat n.toNat_lt, Option.map_some, UInt32.ofNat_toNat]

theorem undoes_list {read : Json → Option α} {write : α → Json} (h : Undoes read write) :
    Undoes (list? read) (ofList write) := by
  intro items
  induction items with
  | nil => rfl
  | cons first rest ih =>
    rw [ofList, list?] at ih ⊢
    rw [List.map_cons, List.mapM_cons, h first, ih]
    rfl

theorem undoes_bytes : Undoes bytes? ofBytes := undoes_list undoes_uint8

/-- Constants are told apart by their names. -/
theorem undoes_constant {all : List α} {name : α → String}
    (hall : ∀ constant, all.find? (fun other => name other = name constant) = some constant) :
    Undoes (constant? all name) (fun constant => str (name constant)) :=
  fun constant => hall constant

/-! ## Fields -/

section

variable {read : Json → Option α} {write : α → Json} (h : Undoes read write)
include h

theorem required_some (value : α) : required read (some (write value)) = some value := h value

theorem orDefault_some (default value : α) :
    orDefault default read (some (write value)) = some value := h value

/-- A value that is not written as `null` may stand in an optional field. -/
theorem optional_some (hnull : ∀ value, write value ≠ null) (value : α) :
    optional read (some (write value)) = some (some value) := by
  have hread : option? read (write value) = (read (write value)).map some := by
    unfold option?
    split
    next heq => exact absurd heq (hnull value)
    next => rfl
  rw [optional, hread, h value, Option.map_some]

/-- An absent value may be left out. -/
theorem optional_map (hnull : ∀ value, write value ≠ null) (value : Option α) :
    optional read (value.map write) = some value := by
  cases value with
  | none => rfl
  | some value => exact optional_some h hnull value

/-- An absent value may be written as `null`. -/
theorem optional_ofOption (hnull : ∀ value, write value ≠ null) (value : Option α) :
    optional read (some (ofOption write value)) = some value := by
  cases value with
  | none => rfl
  | some value => exact optional_some h hnull value

end

/-- A record without a field that has to be there is not read. -/
theorem required_none (read : Json → Option α) : required read none = none := rfl

end FirstFailure.Json
