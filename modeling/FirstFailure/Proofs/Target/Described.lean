import FirstFailure.Proofs.Json.Parts
import FirstFailure.Proofs.Target.HexPath
import FirstFailure.Proofs.Target.Preorder
import FirstFailure.Proofs.Target.Schema
/-!
# The schema describes the documents that are read

A value of the schema is read as a document, and the document describes a tree, unless a unit is
written as a number with a fraction. The other way round, a document has a value of the schema
exactly when its targets have names and paths that can be read. Both follow the targets from the
top: `TargetSpec.Described` says what the schema asks of a single one.
-/

namespace FirstFailure

namespace Schema

variable {definitions : Definitions} {properties : List (String × Schema)}

/-! ## Texts -/

theorem textFaults_nonempty_iff {text : String} : textFaults 1 none text = [] ↔ text ≠ "" := by
  rw [textFaults, List.append_nil, ite_eq_right_iff]
  simp

theorem textFaults_path_iff {text : String} :
    textFaults 0 (some (HexPath.pattern, HexPath.patternText)) text = [] ↔
      ∃ path, HexPath.parse text = .ok path := by
  rw [← HexPath.accepts_pattern_iff, textFaults, if_neg (Nat.not_lt_zero _), List.nil_append]
  simp

/-! ## Fields of an object of a schema -/

section

variable {members : List (String × Json)}
  (hvalues : ∀ name value, (name, value) ∈ members →
    ∃ schema, property? properties name = some schema ∧ Accepts definitions schema value)
include hvalues

theorem accepts_of_member? {name : String} {schema : Schema} {value : Json}
    (hproperty : property? properties name = some schema)
    (h : Json.member? name members = some value) : Accepts definitions schema value := by
  obtain ⟨schema', hschema, haccepts⟩ := hvalues name value (Json.mem_of_member?_eq_some h)
  rw [hproperty] at hschema
  cases hschema
  exact haccepts

/-- An optional text is read, and it is a text of its schema. -/
theorem exists_optional_text {name : String} {minLength : Nat}
    {pattern : Option (Pattern × String)}
    (hproperty : property? properties name = some (string minLength pattern)) :
    ∃ text, Json.optional Json.string? (Json.member? name members) = some text ∧
      ∀ own, text = some own → textFaults minLength pattern own = [] := by
  cases hmember : Json.member? name members with
  | none => exact ⟨none, rfl, nofun⟩
  | some value =>
    obtain ⟨text, rfl, htext⟩ :=
      accepts_string_iff.mp (accepts_of_member? hvalues hproperty hmember)
    refine ⟨some text, rfl, fun own hown => ?_⟩
    cases hown
    exact htext

/-- A text that has to be there is read, and it is a text of its schema. -/
theorem exists_required_text {name : String} {minLength : Nat}
    {pattern : Option (Pattern × String)}
    (hproperty : property? properties name = some (string minLength pattern))
    (hname : name ∈ members.map (·.1)) :
    ∃ text, Json.required Json.string? (Json.member? name members) = some text ∧
      textFaults minLength pattern text = [] := by
  obtain ⟨value, hmember⟩ := Option.isSome_iff_exists.mp (Json.member?_isSome_iff.mpr hname)
  obtain ⟨text, rfl, htext⟩ :=
    accepts_string_iff.mp (accepts_of_member? hvalues hproperty hmember)
  exact ⟨text, by rw [hmember]; rfl, htext⟩

/-- An optional number of 32 bits is read if it is not written with a fraction. -/
theorem exists_optional_uint32 {name : String}
    (hproperty : property? properties name = some (integer 0 4294967295))
    (hreal : ∀ value, (name, value) ∈ members → ∀ x, value ≠ .real x) :
    ∃ n, Json.optional Json.uint32? (Json.member? name members) = some n := by
  cases hmember : Json.member? name members with
  | none => exact ⟨none, rfl⟩
  | some value =>
    obtain ⟨n, rfl, hlow, hhigh⟩ | ⟨x, rfl, -⟩ :=
      accepts_integer_iff.mp (accepts_of_member? hvalues hproperty hmember)
    · have hrange : 0 ≤ n ∧ n < (4294967296 : Nat) := by omega
      refine ⟨some (UInt32.ofNat n.toNat), ?_⟩
      simp only [Json.optional, Json.option?, Json.uint32?, Json.natBelow?, if_pos hrange,
        Option.map_some]
    · exact absurd rfl (hreal _ (Json.mem_of_member?_eq_some hmember) x)

end

/-! ## Objects without the members that are `null` -/

/-- Without its `null` members an object is one of a schema when every other member is. -/
theorem accepts_withoutNulls_iff {required : List String} {members : List (String × Json)} :
    Accepts definitions (object properties required) (Json.withoutNulls (.obj members)) ↔
      (∀ member ∈ members, member.2 ≠ .null →
        ∃ schema, property? properties member.1 = some schema ∧
          Accepts definitions schema member.2.withoutNulls) ∧
      ∀ name ∈ required, ∃ value, (name, value) ∈ members ∧ value ≠ .null := by
  rw [Json.withoutNulls, accepts_object_iff]
  simp only [Json.obj.injEq, exists_eq_left', Json.mem_membersWithoutNulls_iff, List.mem_map,
    Prod.exists, Prod.forall]
  constructor
  · rintro ⟨hvalues, hrequired⟩
    refine ⟨fun name value hmember hne => hvalues name _ ⟨value, hmember, hne, rfl⟩, ?_⟩
    intro name hname
    obtain ⟨_, _, ⟨value, hmember, hne, -⟩, rfl⟩ := hrequired name hname
    exact ⟨value, hmember, hne⟩
  · rintro ⟨hvalues, hrequired⟩
    constructor
    · rintro name _ ⟨value, hmember, hne, rfl⟩
      exact hvalues name value hmember hne
    · intro name hname
      obtain ⟨value, hmember, hne⟩ := hrequired name hname
      exact ⟨name, _, ⟨value, hmember, hne, rfl⟩, rfl⟩

/-- A text that may be absent is one of its schema if it is present. -/
theorem accepts_ofOption_text_iff {minLength : Nat} {pattern : Option (Pattern × String)}
    {text : Option String} :
    (Json.ofOption .str text ≠ .null →
        Accepts definitions (string minLength pattern) (Json.ofOption .str text).withoutNulls) ↔
      ∀ own, text = some own → textFaults minLength pattern own = [] := by
  cases text with
  | none => simp [Json.ofOption]
  | some own => simp [Json.ofOption, Json.withoutNulls, accepts_string_iff]

/-- Targets in a row are an array of targets, whose schema goes by its name inside that of a target.
-/
theorem accepts_targets_iff {value : Json} :
    Accepts Schema.definitions targets value ↔
      ∃ items, value = .arr items ∧ ∀ item ∈ items, Accepts Schema.definitions target item := by
  have hnamed : ∀ item, Accepts Schema.definitions (named "target") item ↔
      Accepts Schema.definitions target item := fun item => accepts_congr (by rfl)
  simp only [targets, accepts_array_iff, hnamed]

end Schema

namespace TargetSpec

open Schema

/-! ## Targets -/

/-- What the schema asks of a target apart from its children: a name, and a path that can be read.
-/
structure Described (target : TargetSpec) : Prop where
  name : target.name ≠ ""
  path : ∀ text, target.physicalPath = some text → ∃ path, HexPath.parse text = .ok path

/-- A described target at every depth. -/
def AllDescribed (forest : List TargetSpec) : Prop :=
  ∀ target ∈ preorderAll forest, target.Described

theorem allDescribed_cons_iff {target : TargetSpec} {rest : List TargetSpec} :
    AllDescribed (target :: rest) ↔
      target.Described ∧ AllDescribed target.children ∧ AllDescribed rest := by
  simp only [AllDescribed, preorderAll_cons, List.forall_mem_cons, List.forall_mem_append]

/-! ## Reading targets -/

theorem ofMembers?_eq (members : List (String × Json)) :
    ofMembers? members
      = match Json.member? "children" members with
        | none => some []
        | some value => ofChildren? value := by
  induction members with
  | nil => rfl
  | cons first rest ih =>
    obtain ⟨key, value⟩ := first
    rw [ofMembers?, Json.member?]
    split
    · rfl
    · exact ih

/-- No unit at any depth is written as a number with a fraction or an exponent. -/
def UnitsNotReal (value : Json) : Prop :=
  ∀ unit, value.HasMember "mru_id" unit → ∀ x, unit ≠ .real x

theorem UnitsNotReal.part {value part : Json} (h : UnitsNotReal value)
    (hpart : part ∈ value.parts) : UnitsNotReal part :=
  fun unit hunit => h unit (.inside hpart hunit)

/-- Targets in a row are read, and all of them are described, if that is so for each of them. -/
theorem exists_ofAll? {items : List Json}
    (h : ∀ item ∈ items, ∃ target, ofJson? item = some target ∧ AllDescribed [target]) :
    ∃ forest, ofAll? items = some forest ∧ AllDescribed forest := by
  induction items with
  | nil => exact ⟨[], rfl, nofun⟩
  | cons item rest ih =>
    rw [List.forall_mem_cons] at h
    obtain ⟨⟨target, htarget, hdescribed⟩, hitems⟩ := h
    obtain ⟨forest, hforest, hall⟩ := ih hitems
    obtain ⟨hown, hbelow, -⟩ := allDescribed_cons_iff.mp hdescribed
    refine ⟨target :: forest, ?_, allDescribed_cons_iff.mpr ⟨hown, hbelow, hall⟩⟩
    rw [ofAll?, htarget, hforest]
    rfl

/-- A target of the schema is read with whatever children it has, if its unit is not written with a
fraction. -/
theorem exists_withChildren? {members : List (String × Json)} (children : List TargetSpec)
    (hvalues : ∀ name value, (name, value) ∈ members → ∃ schema,
      property? target.properties name = some schema ∧ Accepts definitions schema value)
    (hname : "name" ∈ members.map (·.1)) (hunits : UnitsNotReal (.obj members)) :
    ∃ spec, withChildren? (.obj members) children = some spec ∧ spec.Described ∧
      spec.children = children := by
  have hschema : property? target.properties "name" = some (string 1 none) := rfl
  obtain ⟨name, hname, hnonempty⟩ := exists_required_text hvalues hschema hname
  have hschema : property? target.properties "phys_bin_path"
      = some (string 0 (some (HexPath.pattern, HexPath.patternText))) := rfl
  obtain ⟨physicalPath, hphysical, hpath⟩ := exists_optional_text hvalues hschema
  have hschema : property? target.properties "phys_dev_path" = some (string 0 none) := rfl
  obtain ⟨devicePath, hdevice, -⟩ := exists_optional_text hvalues hschema
  have hschema : property? target.properties "location_code" = some (string 0 none) := rfl
  obtain ⟨locationCode, hlocation, -⟩ := exists_optional_text hvalues hschema
  have hschema : property? target.properties "mru_id" = some (integer 0 4294967295) := rfl
  obtain ⟨unitId, hunit⟩ := exists_optional_uint32 hvalues hschema
    fun value hvalue => hunits value (.here hvalue)
  refine ⟨⟨name, physicalPath, devicePath, locationCode, unitId, children⟩, ?_, ⟨?_, ?_⟩, rfl⟩
  · simp only [withChildren?, fieldNames, Json.fields?, List.map_cons, List.map_nil, hname,
      hphysical, hdevice, hlocation, hunit, Option.bind_eq_bind, Option.bind_some, Option.pure_def]
  · exact textFaults_nonempty_iff.mp hnonempty
  · exact fun text htext => textFaults_path_iff.mp (hpath text htext)

/-- A target of the schema is read once its children are. -/
theorem exists_ofJson?_of_children {value : Json} (hunits : UnitsNotReal value)
    (hchildren : ∀ part ∈ value.parts, Accepts definitions targets part →
      ∃ forest, ofChildren? part = some forest ∧ AllDescribed forest)
    (haccepts : Accepts definitions target value) :
    ∃ spec, ofJson? value = some spec ∧ AllDescribed [spec] := by
  have htarget : target = object target.properties ["name"] := rfl
  rw [htarget, accepts_object_iff] at haccepts
  obtain ⟨members, rfl, hvalues, hrequired⟩ := haccepts
  have hmembers : ∃ forest, ofMembers? members = some forest ∧ AllDescribed forest := by
    rw [ofMembers?_eq]
    cases hmember : Json.member? "children" members with
    | none => exact ⟨[], rfl, nofun⟩
    | some part =>
      have hschema : property? target.properties "children" = some targets := rfl
      refine hchildren part ?_ (accepts_of_member? hvalues hschema hmember)
      exact List.mem_map.mpr ⟨_, Json.mem_of_member?_eq_some hmember, rfl⟩
  obtain ⟨forest, hforest, hall⟩ := hmembers
  obtain ⟨spec, hspec, hdescribed, rfl⟩ :=
    exists_withChildren? forest hvalues (hrequired _ (List.mem_singleton_self _)) hunits
  refine ⟨spec, ?_, allDescribed_cons_iff.mpr ⟨hdescribed, hall, nofun⟩⟩
  rw [ofJson?, hforest]
  exact hspec

/-- A target of the schema is read, and so are several in a row. -/
theorem exists_of_accepts (value : Json) (hunits : UnitsNotReal value) :
    (Accepts definitions target value →
      ∃ spec, ofJson? value = some spec ∧ AllDescribed [spec]) ∧
    (Accepts definitions targets value →
      ∃ forest, ofChildren? value = some forest ∧ AllDescribed forest) := by
  -- The parts of a target are no targets, but its children are an array, whose parts are.
  induction value using Json.parts_induction with
  | step value ih =>
    constructor
    · exact exists_ofJson?_of_children hunits fun part hpart =>
        (ih part hpart (hunits.part hpart)).2
    · intro haccepts
      obtain ⟨items, rfl, hitems⟩ := accepts_targets_iff.mp haccepts
      exact exists_ofAll? fun item hitem =>
        (ih item hitem (hunits.part hitem)).1 (hitems item hitem)

/-! ## Writing targets -/

/-- A unit is a number of the schema if it is present. -/
theorem accepts_ofOption_unit (id : Option UInt32)
    (hpresent : Json.ofOption (fun id : UInt32 => Json.ofNat id.toNat) id ≠ .null) :
    Accepts definitions (integer 0 4294967295)
      (Json.ofOption (fun id => .ofNat id.toNat) id).withoutNulls := by
  cases id with
  | none => exact absurd rfl hpresent
  | some id =>
    have hbound := id.toNat_lt
    exact accepts_integer_iff.mpr (.inl ⟨id.toNat, rfl, by omega, by omega⟩)

/-- What is written of a target is one of the schema when the target is described and what is
written of its children is of the schema. -/
theorem accepts_toJson_iff {spec : TargetSpec} :
    Accepts definitions target spec.toJson.withoutNulls ↔
      spec.Described ∧
        Accepts definitions targets (Json.arr (toJsonAll spec.children)).withoutNulls := by
  obtain ⟨name, physicalPath, devicePath, locationCode, unitId, children⟩ := spec
  have htarget : target = object target.properties ["name"] := rfl
  have hname : property? target.properties "name" = some (string 1 none) := rfl
  have hphysical : property? target.properties "phys_bin_path"
      = some (string 0 (some (HexPath.pattern, HexPath.patternText))) := rfl
  have hdevice : property? target.properties "phys_dev_path" = some (string 0 none) := rfl
  have hlocation : property? target.properties "location_code" = some (string 0 none) := rfl
  have hunit : property? target.properties "mru_id" = some (integer 0 4294967295) := rfl
  have hchildren : property? target.properties "children" = some targets := rfl
  have hpresent : Accepts definitions (string 1 none) (Json.str name).withoutNulls ↔ name ≠ "" := by
    simp [Json.withoutNulls, accepts_string_iff, textFaults_nonempty_iff]
  rw [htarget, toJson, accepts_withoutNulls_iff]
  simp only [List.forall_mem_cons, hname, hphysical, hdevice, hlocation, hunit, hchildren,
    Option.some.injEq, exists_eq_left', accepts_ofOption_text_iff, hpresent, textFaults_path_iff]
  constructor
  · rintro ⟨⟨hnonempty, hpath, -, -, -, hbelow, -⟩, -⟩
    exact ⟨⟨hnonempty nofun, hpath⟩, hbelow nofun⟩
  · rintro ⟨⟨hnonempty, hpath⟩, hbelow⟩
    refine ⟨⟨fun _ => hnonempty, hpath, fun _ _ => rfl, fun _ _ => rfl,
      accepts_ofOption_unit unitId, fun _ => hbelow, nofun⟩, ?_⟩
    exact ⟨⟨_, .head _, nofun⟩, nofun⟩

theorem accepts_arr_withoutNulls_iff {items : List Json} :
    Accepts definitions targets (Json.arr items).withoutNulls ↔
      ∀ item ∈ items, Accepts definitions target item.withoutNulls := by
  rw [Json.withoutNulls, Json.itemsWithoutNulls_eq_map, accepts_targets_iff]
  simp only [Json.arr.injEq, exists_eq_left', List.forall_mem_map]

/-- What is written of targets in a row is of the schema when they are described at every depth. -/
theorem accepts_toJsonAll_iff (forest : List TargetSpec) :
    Accepts definitions targets (Json.arr (toJsonAll forest)).withoutNulls ↔
      AllDescribed forest := by
  induction forest using forest_induction with
  | nil =>
    rw [accepts_arr_withoutNulls_iff]
    exact ⟨fun _ => nofun, fun _ => nofun⟩
  | cons spec rest hchildren hrest =>
    rw [accepts_arr_withoutNulls_iff] at hrest ⊢
    rw [toJsonAll, List.forall_mem_cons, accepts_toJson_iff, hchildren, hrest,
      allDescribed_cons_iff, and_assoc]

end TargetSpec

/-! ## Documents -/

namespace TargetDocument

open Schema TargetSpec

theorem exists_ofJson?_of_accepts {value : Json} (haccepts : schemaViolations value = [])
    (hunits : UnitsNotReal value) :
    ∃ document, ofJson? value = some document ∧ AllDescribed document.targets := by
  have haccepts : Accepts definitions (object targetDocument.properties ["targets"]) value :=
    haccepts
  obtain ⟨members, rfl, hvalues, hrequired⟩ := accepts_object_iff.mp haccepts
  have hschema : property? targetDocument.properties "location_code" = some (string 0 none) := rfl
  obtain ⟨locationCode, hlocation, -⟩ := exists_optional_text hvalues hschema
  obtain ⟨part, hpart⟩ := Option.isSome_iff_exists.mp
    (Json.member?_isSome_iff.mpr (hrequired _ (List.mem_singleton_self _)))
  have hschema : property? targetDocument.properties "targets" = some Schema.targets := rfl
  have hinside : part ∈ (Json.obj members).parts :=
    List.mem_map.mpr ⟨_, Json.mem_of_member?_eq_some hpart, rfl⟩
  obtain ⟨forest, hforest, hall⟩ := (exists_of_accepts part (hunits.part hinside)).2
    (accepts_of_member? hvalues hschema hpart)
  refine ⟨⟨locationCode, forest⟩, ?_, hall⟩
  simp only [ofJson?, fieldNames, Json.fields?, List.map_cons, List.map_nil, hlocation, hpart,
    Json.orDefault, hforest, Option.bind_eq_bind, Option.bind_some, Option.pure_def]

theorem schemaViolations_toJson_iff (document : TargetDocument) :
    schemaViolations document.toJson.withoutNulls = [] ↔ AllDescribed document.targets := by
  obtain ⟨locationCode, forest⟩ := document
  have hlocation : property? targetDocument.properties "location_code"
      = some (string 0 none) := rfl
  have htargets : property? targetDocument.properties "targets" = some Schema.targets := rfl
  show Accepts definitions (object targetDocument.properties ["targets"])
    (Json.withoutNulls (.obj _)) ↔ _
  rw [accepts_withoutNulls_iff]
  simp only [List.forall_mem_cons, hlocation, htargets, Option.some.injEq, exists_eq_left',
    accepts_ofOption_text_iff, accepts_toJsonAll_iff]
  constructor
  · rintro ⟨⟨-, hforest, -⟩, -⟩
    exact hforest nofun
  · intro hforest
    refine ⟨⟨fun _ _ => rfl, fun _ => hforest, nofun⟩, ?_⟩
    exact ⟨⟨_, .tail _ (.head _), nofun⟩, nofun⟩

/-- A value of the schema in which no unit is written with a fraction is read as a document, and the
document describes a tree; and what is written of a document, the absent fields left out, is of the
schema exactly when every target at every depth has a name, and a path that can be read if it has
one. -/
theorem schema_describes_documents :
    (∀ value, schemaViolations value = [] →
      (∀ unit, value.HasMember "mru_id" unit → ∀ x, unit ≠ .real x) →
        ∃ document tree, ofJson? value = some document ∧
          TargetTree.ofDocument document = .ok tree) ∧
    ∀ document : TargetDocument, schemaViolations document.toJson.withoutNulls = [] ↔
      ∀ target ∈ preorderAll document.targets, target.name ≠ "" ∧
        ∀ text, target.physicalPath = some text → ∃ path, HexPath.parse text = .ok path := by
  constructor
  · intro value haccepts hunits
    obtain ⟨document, hdocument, hall⟩ := exists_ofJson?_of_accepts haccepts hunits
    obtain ⟨tree, htree⟩ := TargetTree.exists_ofDocument_iff.mpr
      fun target htarget => (hall target htarget).path
    exact ⟨document, tree, hdocument, htree⟩
  · intro document
    rw [schemaViolations_toJson_iff]
    exact forall₂_congr fun target _ =>
      ⟨fun hdescribed => ⟨hdescribed.name, hdescribed.path⟩, fun ⟨hname, hpath⟩ => ⟨hname, hpath⟩⟩

/-- A target in a target is read with its path; a document in which such a path has an odd number of
digits is not one of the schema. -/
theorem schema_describes_documents_nested :
    (let core : Json := .obj [("phys_bin_path", .str "0x2301"), ("name", .str "core0")]
     let value : Json := .obj [("targets", .arr [
       .obj [("name", .str "proc0"), ("mru_id", .int 7), ("children", .arr [core])]])]
     schemaViolations value = [] ∧
       (∀ unit, value.HasMember "mru_id" unit → ∀ x, unit ≠ .real x) ∧
       ∃ document tree, ofJson? value = some document ∧
         TargetTree.ofDocument document = .ok tree) ∧
    (let core : TargetSpec := { name := "core0", physicalPath := some "0x230" }
     let document : TargetDocument := { targets := [{ name := "proc0", children := [core] }] }
     schemaViolations document.toJson.withoutNulls ≠ []) := by
  constructor
  · intro core value
    have haccepts : schemaViolations value = [] := by rfl
    have hunits : UnitsNotReal value := by
      have htext : ∀ text unit, ¬(Json.str text).HasMember "mru_id" unit :=
        fun _ _ => Json.not_hasMember_of_parts rfl
      have hnumber : ∀ n unit, ¬(Json.int n).HasMember "mru_id" unit :=
        fun _ _ => Json.not_hasMember_of_parts rfl
      simp [UnitsNotReal, value, core, Json.hasMember_obj_iff, Json.hasMember_arr_iff, htext,
        hnumber]
    exact ⟨haccepts, hunits, schema_describes_documents.1 value haccepts hunits⟩
  · intro core document haccepts
    have hmember : core ∈ preorderAll document.targets := .tail _ (.head _)
    obtain ⟨-, hpath⟩ := (schema_describes_documents.2 document).mp haccepts core hmember
    obtain ⟨path, hpath⟩ := hpath "0x230" rfl
    have hparse : HexPath.parse "0x230" = .error (.oddCount 3) := by rfl
    cases hparse.symm.trans hpath

end TargetDocument

end FirstFailure
