import FirstFailure.Json.Reading
/-!
# The parts of a JSON value

The parts of an array are its items, those of an object are the values of its members. What holds of
a value as soon as it holds of its parts holds of every value.
-/

namespace FirstFailure.Json

/-- The values that a value directly consists of. -/
def parts : Json → List Json
  | arr items => items
  | obj members => members.map (·.2)
  | _ => []

/-- Somewhere in a value, at whatever depth, an object has a member of that name and value. -/
inductive HasMember : Json → String → Json → Prop where
  | here {members : List (String × Json)} {name : String} {member : Json}
      (h : (name, member) ∈ members) : HasMember (.obj members) name member
  | inside {value part : Json} {name : String} {member : Json} (hpart : part ∈ value.parts)
      (h : HasMember part name member) : HasMember value name member

theorem hasMember_obj_iff {members : List (String × Json)} {name : String} {member : Json} :
    HasMember (obj members) name member ↔
      (name, member) ∈ members ∨ ∃ own ∈ members, HasMember own.2 name member := by
  constructor
  · rintro (h | ⟨hpart, h⟩)
    · exact .inl h
    · obtain ⟨own, hown, rfl⟩ := List.mem_map.mp hpart
      exact .inr ⟨own, hown, h⟩
  · rintro (h | ⟨own, hown, h⟩)
    · exact .here h
    · exact .inside (List.mem_map.mpr ⟨own, hown, rfl⟩) h

theorem hasMember_arr_iff {items : List Json} {name : String} {member : Json} :
    HasMember (arr items) name member ↔ ∃ item ∈ items, HasMember item name member :=
  ⟨fun | .inside hitem h => ⟨_, hitem, h⟩, fun ⟨_, hitem, h⟩ => .inside hitem h⟩

theorem not_hasMember_of_parts {value : Json} (hparts : value.parts = []) {name : String}
    {member : Json} : ¬HasMember value name member := by
  rintro (h | ⟨hpart, -⟩)
  · rw [parts, List.map_eq_nil_iff] at hparts
    simp [hparts] at h
  · simp [hparts] at hpart

theorem sizeOf_lt_of_mem_parts {value part : Json} (h : part ∈ value.parts) :
    sizeOf part < sizeOf value := by
  cases value with
  | arr items =>
    have hitem := List.sizeOf_lt_of_mem (show part ∈ items from h)
    rw [arr.sizeOf_spec]
    omega
  | obj members =>
    obtain ⟨⟨name, part⟩, hmember, rfl⟩ := List.mem_map.mp h
    have hsize := List.sizeOf_lt_of_mem hmember
    rw [Prod.mk.sizeOf_spec] at hsize
    show sizeOf part < _
    rw [obj.sizeOf_spec]
    omega
  | _ => cases h

@[elab_as_elim]
theorem parts_induction {motive : Json → Prop}
    (step : ∀ value, (∀ part ∈ value.parts, motive part) → motive value) :
    ∀ value, motive value :=
  fun value => step value fun part _ => parts_induction step part
termination_by value => sizeOf value
decreasing_by exact sizeOf_lt_of_mem_parts ‹_›

/-! ## Members by name -/

theorem mem_of_member?_eq_some {name : String} {members : List (String × Json)} {value : Json}
    (h : member? name members = some value) : (name, value) ∈ members := by
  induction members with
  | nil => cases h
  | cons first rest ih =>
    obtain ⟨key, own⟩ := first
    rw [member?] at h
    split at h
    next hkey =>
      cases h
      exact hkey ▸ .head _
    next => exact .tail _ (ih h)

theorem member?_isSome_iff {name : String} {members : List (String × Json)} :
    (member? name members).isSome ↔ name ∈ members.map (·.1) := by
  induction members with
  | nil => simp [member?]
  | cons first rest ih =>
    rw [member?, List.map_cons, List.mem_cons]
    split
    next hkey => simp [hkey]
    next hkey => rw [ih, or_iff_right (Ne.symm hkey)]

/-! ## Members that are left out -/

mutual

/-- A value with the members left out, at every depth, that are `null`. -/
def withoutNulls : Json → Json
  | arr items => arr (itemsWithoutNulls items)
  | obj members => obj (membersWithoutNulls members)
  | value => value

/-- Items with the members left out that are `null`. -/
def itemsWithoutNulls : List Json → List Json
  | [] => []
  | item :: rest => item.withoutNulls :: itemsWithoutNulls rest

/-- The members that are not `null`. -/
def membersWithoutNulls : List (String × Json) → List (String × Json)
  | [] => []
  | (_, null) :: rest => membersWithoutNulls rest
  | (name, value) :: rest => (name, value.withoutNulls) :: membersWithoutNulls rest

end

theorem itemsWithoutNulls_eq_map (items : List Json) :
    itemsWithoutNulls items = items.map withoutNulls := by
  induction items with
  | nil => rfl
  | cons item rest ih => rw [itemsWithoutNulls, ih, List.map_cons]

theorem membersWithoutNulls_cons {name : String} {value : Json} (h : value ≠ null)
    (rest : List (String × Json)) :
    membersWithoutNulls ((name, value) :: rest)
      = (name, value.withoutNulls) :: membersWithoutNulls rest := by
  rw [membersWithoutNulls]
  exact h

theorem mem_membersWithoutNulls_iff {name : String} {value : Json}
    {members : List (String × Json)} :
    (name, value) ∈ membersWithoutNulls members ↔
      ∃ full, (name, full) ∈ members ∧ full ≠ null ∧ value = full.withoutNulls := by
  induction members with
  | nil => simp [membersWithoutNulls]
  | cons first rest ih =>
    obtain ⟨key, own⟩ := first
    simp only [List.mem_cons, or_and_right, exists_or, ← ih, Prod.mk.injEq]
    by_cases hown : own = null
    · subst hown
      rw [membersWithoutNulls, iff_or_self]
      rintro ⟨_, ⟨-, rfl⟩, hne, -⟩
      exact absurd rfl hne
    · rw [membersWithoutNulls_cons hown, List.mem_cons, Prod.mk.injEq]
      refine or_congr_left ⟨?_, ?_⟩
      · rintro ⟨hname, hvalue⟩
        exact ⟨own, ⟨hname, rfl⟩, hown, hvalue⟩
      · rintro ⟨_, ⟨hname, rfl⟩, -, hvalue⟩
        exact ⟨hname, hvalue⟩

end FirstFailure.Json
