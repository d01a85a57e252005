import FirstFailure.Target.Schema
/-!
# Values of a schema

A value without violations has the shape that the schema describes. The equivalences below say so
for each kind of schema, in terms of the items and the members of the value, so that a proof about
the values of a schema follows the schema and never looks at the list of violations.
-/

namespace FirstFailure

namespace Schema

variable {definitions : Definitions}

/-- A value of a schema is one that does not depart from it. -/
def Accepts (definitions : Definitions) (schema : Schema) (value : Json) : Prop :=
  violations definitions schema value = []

/-- The members that an object of a schema may have. -/
def properties : Schema → List (String × Schema)
  | object properties _ => properties
  | _ => []

/-! ## Places

Where a value stands decides how its violations are shown, but not whether there are any. -/

mutual

theorem violationsAt_nil_of_nil {schema : Schema} {place : List String} (other : List String) :
    ∀ value, violationsAt definitions schema place value = [] →
      violationsAt definitions schema other value = []
  | .arr items, h => by
    unfold violationsAt at h ⊢
    split at h
    next items' =>
      exact itemViolations_nil_of_nil other 0 items h
    next => simpa using h
  | .obj members, h => by
    unfold violationsAt at h ⊢
    split at h
    next properties required =>
      simp only [List.append_eq_nil_iff, List.map_eq_nil_iff] at h ⊢
      exact ⟨memberViolations_nil_of_nil other members h.1, h.2⟩
    next => simpa using h
  | .null, h | .bool _, h | .int _, h | .real _, h | .str _, h => by
    simpa [violationsAt] using h

theorem itemViolations_nil_of_nil {schema : Schema} {place : List String} {index : Nat}
    (other : List String) (index' : Nat) :
    ∀ items, itemViolations definitions schema place index items = [] →
      itemViolations definitions schema other index' items = []
  | [], _ => rfl
  | item :: rest, h => by
    rw [itemViolations, List.append_eq_nil_iff] at h ⊢
    exact ⟨violationsAt_nil_of_nil _ item h.1, itemViolations_nil_of_nil other _ rest h.2⟩

theorem memberViolations_nil_of_nil {properties : List (String × Schema)} {place : List String}
    (other : List String) :
    ∀ members, memberViolations definitions properties place members = [] →
      memberViolations definitions properties other members = []
  | [], _ => rfl
  | (name, value) :: rest, h => by
    rw [memberViolations, List.append_eq_nil_iff] at h ⊢
    refine ⟨?_, memberViolations_nil_of_nil other rest h.2⟩
    cases hproperty : property? properties name with
    | none => rfl
    | some schema =>
      simp only [hproperty] at h ⊢
      exact violationsAt_nil_of_nil _ value h.1

end

theorem violationsAt_eq_nil_iff {schema : Schema} {place : List String} {value : Json} :
    violationsAt definitions schema place value = [] ↔ Accepts definitions schema value :=
  ⟨violationsAt_nil_of_nil [] value, violationsAt_nil_of_nil place value⟩

theorem itemViolations_eq_nil_iff {schema : Schema} {place : List String} {index : Nat}
    {items : List Json} :
    itemViolations definitions schema place index items = [] ↔
      ∀ item ∈ items, Accepts definitions schema item := by
  induction items generalizing index with
  | nil => simp [itemViolations]
  | cons item rest ih =>
    rw [itemViolations, List.append_eq_nil_iff, violationsAt_eq_nil_iff, ih, List.forall_mem_cons]

theorem memberViolations_eq_nil_iff {properties : List (String × Schema)} {place : List String}
    {members : List (String × Json)} :
    memberViolations definitions properties place members = [] ↔
      ∀ name value schema, (name, value) ∈ members → property? properties name = some schema →
        Accepts definitions schema value := by
  induction members with
  | nil => simp [memberViolations]
  | cons member rest ih =>
    obtain ⟨name, value⟩ := member
    rw [memberViolations, List.append_eq_nil_iff, ih]
    constructor
    · intro ⟨hfirst, hrest⟩ name' value' schema hmember hproperty
      rcases List.mem_cons.mp hmember with heq | hmember
      · cases heq
        rw [hproperty] at hfirst
        exact violationsAt_eq_nil_iff.mp hfirst
      · exact hrest name' value' schema hmember hproperty
    · intro h
      constructor
      · cases hproperty : property? properties name with
        | none => rfl
        | some schema =>
          exact violationsAt_eq_nil_iff.mpr (h name value schema (.head _) hproperty)
      · intro name' value' schema hmember
        exact h name' value' schema (.tail _ hmember)

/-! ## The shapes of values -/

theorem accepts_congr {schema other : Schema}
    (h : schema.resolve definitions = other.resolve definitions) {value : Json} :
    Accepts definitions schema value ↔ Accepts definitions other value := by
  cases value <;> simp only [Accepts, violations, violationsAt, h]

theorem accepts_string_iff {minLength : Nat} {pattern : Option (Pattern × String)} {value : Json} :
    Accepts definitions (string minLength pattern) value ↔
      ∃ text, value = .str text ∧ textFaults minLength pattern text = [] := by
  cases value <;> simp [Accepts, violations, violationsAt, resolve, scalarFaults]

theorem accepts_integer_iff {minimum maximum : Int} {value : Json} :
    Accepts definitions (integer minimum maximum) value ↔
      (∃ n, value = .int n ∧ minimum ≤ n ∧ n ≤ maximum) ∨
      ∃ x, value = .real x ∧ realFaults minimum maximum x = [] := by
  cases value with
  | int n =>
    simp only [Accepts, violations, violationsAt, resolve, scalarFaults, intFaults]
    simp
    omega
  | _ => simp [Accepts, violations, violationsAt, resolve, scalarFaults]

theorem accepts_array_iff {items : Schema} {value : Json} :
    Accepts definitions (array items) value ↔
      ∃ list, value = .arr list ∧ ∀ item ∈ list, Accepts definitions items item := by
  cases value with
  | arr list => simp [Accepts, violations, violationsAt, resolve, itemViolations_eq_nil_iff]
  | _ => simp [Accepts, violations, violationsAt, resolve, scalarFaults]

theorem mem_names_of_property? {properties : List (String × Schema)} {name : String}
    {schema : Schema} (h : property? properties name = some schema) :
    name ∈ properties.map (·.1) := by
  obtain ⟨⟨key, _⟩, hfind, -⟩ := Option.map_eq_some_iff.mp h
  have hkey : key = name := by simpa using List.find?_some hfind
  exact List.mem_map.mpr ⟨_, List.mem_of_find?_eq_some hfind, hkey⟩

theorem memberFaults_eq_nil_iff {properties : List (String × Schema)} {required : List String}
    {members : List (String × Json)} :
    memberFaults properties required members = [] ↔
      (∀ name ∈ members.map (·.1), (property? properties name).isSome) ∧
      ∀ name ∈ required, name ∈ members.map (·.1) := by
  rw [memberFaults, List.append_eq_nil_iff, List.map_eq_nil_iff, List.filter_eq_nil_iff]
  refine and_congr ?_ (forall₂_congr fun name _ => by simp)
  rw [ite_eq_left_iff]
  simp only [List.isEmpty_iff, reduceCtorEq, imp_false, Classical.not_not, List.filter_eq_nil_iff,
    Option.isNone_iff_eq_none, Option.isSome_iff_ne_none, ne_eq]

/-- The values of an object schema are the objects whose members all have a schema and are values of
it, and that have all the members they need. -/
theorem accepts_object_iff {properties : List (String × Schema)} {required : List String}
    {value : Json} :
    Accepts definitions (object properties required) value ↔
      ∃ members, value = .obj members ∧
        (∀ name value, (name, value) ∈ members →
          ∃ schema, property? properties name = some schema ∧ Accepts definitions schema value) ∧
        ∀ name ∈ required, name ∈ members.map (·.1) := by
  cases value with
  | obj members =>
    simp only [Accepts, violations, violationsAt, resolve, List.append_eq_nil_iff,
      List.map_eq_nil_iff, memberViolations_eq_nil_iff, memberFaults_eq_nil_iff,
      Json.obj.injEq, exists_eq_left']
    constructor
    · intro ⟨hvalues, hknown, hrequired⟩
      refine ⟨?_, hrequired⟩
      intro name value hmember
      obtain ⟨schema, hschema⟩ :=
        Option.isSome_iff_exists.mp (hknown name (List.mem_map.mpr ⟨_, hmember, rfl⟩))
      exact ⟨schema, hschema, hvalues name value schema hmember hschema⟩
    · intro ⟨hvalues, hrequired⟩
      refine ⟨?_, ?_, hrequired⟩
      · intro name value schema hmember hschema
        obtain ⟨schema', hschema', haccepts⟩ := hvalues name value hmember
        rw [hschema] at hschema'
        cases hschema'
        exact haccepts
      · intro name hname
        obtain ⟨⟨_, value⟩, hmember, rfl⟩ := List.mem_map.mp hname
        obtain ⟨schema, hschema, -⟩ := hvalues _ value hmember
        exact Option.isSome_iff_exists.mpr ⟨schema, hschema⟩
  | _ => simp [Accepts, violations, violationsAt, resolve, scalarFaults]

end Schema

end FirstFailure
