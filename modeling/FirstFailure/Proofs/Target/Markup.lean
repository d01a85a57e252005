import FirstFailure.Proofs.Target.Schema
import FirstFailure.Proofs.Yaml.Values
import FirstFailure.Target.Markup
/-!
# Documents in markup whose values the schema accepts

A node whose value is of the schema nearly always spells a document. What may still be wrong is not
visible in the value: a mapping may repeat a key, of which the value has the last entry only, and
the unit of a target may be a number that is not spelled as a whole one. `Yaml.WellSpelled` excludes
both, at every depth, and is exact.
-/

namespace FirstFailure

namespace Yaml

/-- A plain whole number without a minus sign, a fraction or an exponent. -/
def SpellsUnsigned : Yaml → Prop
  | scalar text false => text.toList.head? ≠ some '-' ∧ (integer? text.toList).isSome
  | _ => False

/-- No mapping of a node repeats a key, and every unit is spelled as an unsigned whole number. -/
inductive WellSpelled : Yaml → Prop where
  | scalar (text : String) (quoted : Bool) : WellSpelled (.scalar text quoted)
  | seq {items : List Yaml} (inside : ∀ item ∈ items, WellSpelled item) : WellSpelled (.seq items)
  | map {entries : List (Yaml × Yaml)} (keys : (entries.map (·.1.text?)).Nodup)
      (units : ∀ entry ∈ entries, entry.1.text? = some "mru_id" → entry.2.SpellsUnsigned)
      (inside : ∀ entry ∈ entries, WellSpelled entry.2) : WellSpelled (.map entries)

theorem wellSpelled_seq_iff {items : List Yaml} :
    WellSpelled (.seq items) ↔ ∀ item ∈ items, WellSpelled item :=
  ⟨fun | .seq inside => inside, .seq⟩

theorem wellSpelled_map_iff {entries : List (Yaml × Yaml)} :
    WellSpelled (.map entries) ↔
      (entries.map (·.1.text?)).Nodup ∧
      (∀ entry ∈ entries, entry.1.text? = some "mru_id" → entry.2.SpellsUnsigned) ∧
      ∀ entry ∈ entries, WellSpelled entry.2 :=
  ⟨fun | .map keys units inside => ⟨keys, units, inside⟩,
    fun ⟨keys, units, inside⟩ => .map keys units inside⟩

/-! ## Whole numbers -/

theorem unsigned?_minus (digits : List Char) : unsigned? ('-' :: digits) = none := by
  unfold unsigned?
  split
  · rfl
  · rfl

theorem not_minus_of_unsigned {text : List Char} {n : Nat} (h : unsigned? text = some n) :
    text.head? ≠ some '-' := by
  cases text with
  | nil => exact nofun
  | cons sign digits =>
    intro hsign
    cases hsign
    rw [unsigned?_minus] at h
    cases h

theorem integer?_of_unsigned {text : List Char} {n : Nat} (h : unsigned? text = some n)
    (hn : n < unsignedBound) : integer? text = some (n : Int) := by
  simp only [integer?, h, if_pos hn]

theorem exists_unsigned_of_integer? {text : List Char} {i : Int} (h : integer? text = some i)
    (hsign : text.head? ≠ some '-') : ∃ n : Nat, unsigned? text = some n ∧ i = n := by
  cases hunsigned : unsigned? text with
  | some n =>
    simp only [integer?, hunsigned, Option.ite_none_right_eq_some, Option.some.injEq] at h
    exact ⟨n, rfl, h.2.symm⟩
  | none =>
    cases text with
    | nil => simp [integer?, hunsigned] at h
    | cons sign digits =>
      have hminus : sign ≠ '-' := fun heq => hsign (congrArg some heq)
      simp [integer?, hunsigned, hminus] at h

theorem exists_uint32?_iff {text : String} :
    (∃ id, uint32? (.scalar text false) = some id) ↔
      ∃ n, unsigned? text.toList = some n ∧ n < 4294967296 := by
  simp only [uint32?, Option.bind_eq_some_iff]
  constructor
  · rintro ⟨id, n, hn, hid⟩
    split at hid
    next hlt => exact ⟨n, hn, hlt⟩
    next => cases hid
  · rintro ⟨n, hn, hlt⟩
    exact ⟨_, n, hn, if_pos hlt⟩

/-! ## Entries by name -/

theorem exists_of_entry?_eq_some {name : String} {entries : List (Yaml × Yaml)} {node : Yaml}
    (h : entry? name entries = some node) :
    ∃ entry ∈ entries, entry.1.text? = some name ∧ entry.2 = node := by
  induction entries with
  | nil => cases h
  | cons entry rest ih =>
    unfold entry? at h
    split at h
    next hkey =>
      cases h
      exact ⟨entry, .head _, hkey, rfl⟩
    next =>
      obtain ⟨later, hlater, hfound⟩ := ih h
      exact ⟨later, .tail _ hlater, hfound⟩

theorem entry?_isSome_iff {name : String} {entries : List (Yaml × Yaml)} :
    (Yaml.entry? name entries).isSome ↔ ∃ entry ∈ entries, entry.1.text? = some name := by
  induction entries with
  | nil => simp [Yaml.entry?]
  | cons entry rest ih =>
    unfold entry?
    split
    next hkey => simp [hkey]
    next hkey => simp [hkey, ih]

theorem entry?_eq_some_of_mem {name : String} {entries : List (Yaml × Yaml)}
    {entry : Yaml × Yaml} (hnodup : (entries.map (·.1.text?)).Nodup) (hentry : entry ∈ entries)
    (hname : entry.1.text? = some name) : entry? name entries = some entry.2 := by
  induction entries with
  | nil => cases hentry
  | cons first rest ih =>
    rw [List.map_cons, List.nodup_cons] at hnodup
    rw [Yaml.entry?]
    rcases List.mem_cons.mp hentry with rfl | hentry
    · rw [if_pos hname]
    · rw [if_neg, ih hnodup.2 hentry]
      intro hfirst
      exact hnodup.1 (List.mem_map.mpr ⟨entry, hentry, hname.trans hfirst.symm⟩)

/-- Keys that all mean something fit exactly when they are distinct. -/
theorem keysFit_iff_nodup {names : List String} {entries : List (Yaml × Yaml)}
    (hknown : ∀ entry ∈ entries, ∃ name ∈ names, entry.1.text? = some name) :
    keysFit names entries = true ↔ (entries.map (·.1.text?)).Nodup := by
  have hcount : ∀ name : String, (entries.countP fun entry => entry.1.text? = some name)
      = (entries.map (·.1.text?)).count (some name) := by
    intro name
    rw [List.count_eq_countP, List.countP_map]
    exact List.countP_congr fun entry _ => by simp
  rw [keysFit, Bool.and_eq_true, List.all_eq_true, List.all_eq_true, List.nodup_iff_count]
  simp only [decide_eq_true_eq, hcount]
  constructor
  · intro ⟨_, honce⟩ key
    by_cases hkey : key ∈ entries.map (·.1.text?)
    · obtain ⟨entry, hentry, rfl⟩ := List.mem_map.mp hkey
      obtain ⟨name, hname, htext⟩ := hknown entry hentry
      simpa only [htext] using honce name hname
    · rw [List.count_eq_zero_of_not_mem hkey]
      omega
  · intro honce
    constructor
    · intro entry hentry
      obtain ⟨name, -, htext⟩ := hknown entry hentry
      simp [htext]
    · intro name _
      exact honce (some name)

/-! ## Entries behind an object of a schema -/

variable {definitions : Schema.Definitions} {properties : List (String × Schema)}
  {required : List String} {room : Nat}

/-- The entries of a mapping whose value is an object of a schema. Where keys are repeated nothing
is known of the values, since the object has only the last of them. -/
structure Fits (definitions : Schema.Definitions) (properties : List (String × Schema))
    (required : List String) (room : Nat) (entries : List (Yaml × Yaml)) : Prop where
  known : ∀ entry ∈ entries, ∃ name ∈ properties.map (·.1), entry.1.text? = some name
  needed : ∀ name ∈ required, ∃ entry ∈ entries, entry.1.text? = some name
  values : (entries.map (·.1.text?)).Nodup → ∀ entry ∈ entries, ∀ name,
    entry.1.text? = some name → ∃ schema value, Schema.property? properties name = some schema ∧
      entry.2.toJsonAt? room = some value ∧ Schema.Accepts definitions schema value

/-- A node whose value is an object of a schema is a mapping whose entries fit. -/
theorem exists_fits {node : Yaml} {value : Json} (h : node.toJsonAt? room = some value)
    (haccepts : Schema.Accepts definitions (.object properties required) value) :
    ∃ entries inside, node = .map entries ∧ room = inside + 1 ∧
      Fits definitions properties required inside entries := by
  obtain ⟨members, rfl, hvalues, hneeded⟩ := Schema.accepts_object_iff.mp haccepts
  obtain ⟨entries, inside, rfl, rfl, hmembers⟩ := map_of_toJsonAt?_obj h
  refine ⟨entries, inside, rfl, rfl, ?_, ?_, ?_⟩
  · intro entry hentry
    obtain ⟨name, -, hname, -, hmember⟩ := exists_of_mem_entries hmembers hentry
    obtain ⟨⟨_, value⟩, hmember', rfl⟩ := List.mem_map.mp hmember
    obtain ⟨schema, hschema, -⟩ := hvalues _ value hmember'
    exact ⟨_, Schema.mem_names_of_property? hschema, hname⟩
  · intro name hname
    obtain ⟨⟨_, value⟩, hmember, rfl⟩ := List.mem_map.mp (hneeded name hname)
    rcases exists_entry_of_mem hmembers hmember with hnone | ⟨entry, hentry, hkey, -⟩
    · cases hnone
    · exact ⟨entry, hentry, hkey⟩
  · intro hnodup entry hentry name hname
    obtain ⟨key, value, hkey, hvalue, hmember⟩ := mem_of_mem_entries hmembers hnodup hentry
    cases hname.symm.trans hkey
    obtain ⟨schema, hschema, haccepts⟩ := hvalues name value hmember
    exact ⟨schema, value, hschema, hvalue, haccepts⟩

/-- A node whose value is a text of a schema is a scalar, and no field takes it for absent. -/
theorem exists_text {node : Yaml} {value : Json} {minLength : Nat}
    {pattern : Option (Pattern × String)} (h : node.toJsonAt? room = some value)
    (haccepts : Schema.Accepts definitions (.string minLength pattern) value) :
    ∃ text quoted, node = .scalar text quoted ∧
      optional? Yaml.text? (some node) = some (some text) := by
  obtain ⟨text, rfl, -⟩ := Schema.accepts_string_iff.mp haccepts
  obtain ⟨quoted, rfl, hnull⟩ := scalar_of_toJsonAt?_str h
  refine ⟨text, quoted, rfl, ?_⟩
  cases quoted with
  | true => rfl
  | false => simp [optional?, hnull rfl, Yaml.text?]

/-- A node whose value is a number of the schema of units is a plain scalar, and it is read exactly
when it is spelled as an unsigned whole number. -/
theorem exists_unit_iff {node : Yaml} {value : Json} (h : node.toJsonAt? room = some value)
    (haccepts : Schema.Accepts definitions (.integer 0 4294967295) value) :
    (∃ text, node = .scalar text false) ∧
      ((∃ id, optional? uint32? (some node) = some id) ↔ node.SpellsUnsigned) := by
  have hread : ∀ text, spellsNull text = false →
      ((∃ id, optional? uint32? (some (.scalar text false)) = some id) ↔
        ∃ n, unsigned? text.toList = some n ∧ n < 4294967296) := by
    intro text hnull
    rw [← exists_uint32?_iff]
    simp only [optional?, hnull, Bool.false_eq_true, if_false, Option.map_eq_some_iff]
    exact ⟨fun ⟨_, id, hid, _⟩ => ⟨id, hid⟩, fun ⟨id, hid⟩ => ⟨some id, id, hid, rfl⟩⟩
  obtain ⟨n, rfl, hlow, hhigh⟩ | ⟨x, rfl, -⟩ := Schema.accepts_integer_iff.mp haccepts
  · obtain ⟨text, rfl, hnull, hinteger⟩ := scalar_of_toJsonAt?_int h
    refine ⟨⟨text, rfl⟩, (hread text hnull).trans ⟨?_, ?_⟩⟩
    · rintro ⟨m, hm, -⟩
      exact ⟨not_minus_of_unsigned hm, Option.isSome_of_eq_some hinteger⟩
    · rintro ⟨hsign, -⟩
      obtain ⟨m, hm, rfl⟩ := exists_unsigned_of_integer? hinteger hsign
      exact ⟨m, hm, by omega⟩
  · obtain ⟨text, rfl, hnull, hinteger⟩ := scalar_of_toJsonAt?_real h
    refine ⟨⟨text, rfl⟩, (hread text hnull).trans ⟨?_, ?_⟩⟩
    · rintro ⟨m, hm, hlt⟩
      have hbound : m < unsignedBound := Nat.lt_trans hlt (by decide)
      rw [integer?_of_unsigned hm hbound] at hinteger
      cases hinteger
    · rintro ⟨-, hsome⟩
      rw [hinteger] at hsome
      cases hsome

namespace Fits

variable {entries : List (Yaml × Yaml)}

theorem field (hfits : Fits definitions properties required room entries)
    (hnodup : (entries.map (·.1.text?)).Nodup) {name : String} {schema : Schema} {node : Yaml}
    (hproperty : Schema.property? properties name = some schema)
    (hfield : Yaml.entry? name entries = some node) :
    ∃ value, node.toJsonAt? room = some value ∧ Schema.Accepts definitions schema value := by
  obtain ⟨entry, hentry, hname, rfl⟩ := exists_of_entry?_eq_some hfield
  obtain ⟨schema', value, hschema, hvalue, haccepts⟩ := hfits.values hnodup entry hentry name hname
  rw [hproperty] at hschema
  cases hschema
  exact ⟨value, hvalue, haccepts⟩

theorem exists_optional_text (hfits : Fits definitions properties required room entries)
    (hnodup : (entries.map (·.1.text?)).Nodup) {name : String} {minLength : Nat}
    {pattern : Option (Pattern × String)}
    (hproperty : Schema.property? properties name = some (.string minLength pattern)) :
    ∃ text, optional? Yaml.text? (Yaml.entry? name entries) = some text := by
  cases hfield : Yaml.entry? name entries with
  | none => exact ⟨none, rfl⟩
  | some node =>
    obtain ⟨value, hvalue, haccepts⟩ := hfits.field hnodup hproperty hfield
    obtain ⟨text, _, -, htext⟩ := exists_text hvalue haccepts
    exact ⟨some text, htext⟩

theorem exists_required_text (hfits : Fits definitions properties required room entries)
    (hnodup : (entries.map (·.1.text?)).Nodup) {name : String} {minLength : Nat}
    {pattern : Option (Pattern × String)}
    (hproperty : Schema.property? properties name = some (.string minLength pattern))
    (hname : name ∈ required) :
    ∃ text, (Yaml.entry? name entries).bind Yaml.text? = some text := by
  obtain ⟨node, hfield⟩ :=
    Option.isSome_iff_exists.mp (entry?_isSome_iff.mpr (hfits.needed name hname))
  obtain ⟨value, hvalue, haccepts⟩ := hfits.field hnodup hproperty hfield
  obtain ⟨text, _, rfl, -⟩ := exists_text hvalue haccepts
  exact ⟨text, by rw [hfield]; rfl⟩

end Fits

end Yaml

/-! ## Reading targets -/

namespace TargetSpec

open Yaml Schema

variable {room : Nat} {entries : List (Yaml × Yaml)}

theorem childrenOfEntries?_eq (room : Nat) (entries : List (Yaml × Yaml)) :
    childrenOfEntries? room entries
      = match Yaml.entry? "children" entries with
        | none => some []
        | some node => childrenOfYaml? room node := by
  induction entries with
  | nil => rfl
  | cons entry rest ih =>
    rw [childrenOfEntries?, Yaml.entry?]
    split
    · rfl
    · exact ih

theorem exists_allOfYaml?_iff {items : List Yaml} :
    (∃ targets, allOfYaml? room items = some targets) ↔
      ∀ item ∈ items, ∃ target, ofYaml? room item = some target := by
  induction items with
  | nil => simp [allOfYaml?]
  | cons item rest ih =>
    rw [List.forall_mem_cons, ← ih]
    simp only [allOfYaml?, Option.bind_eq_bind, Option.bind_eq_some_iff, Option.pure_def,
      Option.some.injEq]
    constructor
    · rintro ⟨_, target, htarget, targets, htargets, -⟩
      exact ⟨⟨target, htarget⟩, targets, htargets⟩
    · rintro ⟨⟨target, htarget⟩, targets, htargets⟩
      exact ⟨_, target, htarget, targets, htargets, rfl⟩

/-- Targets in a row are read exactly when they are well spelled, if that is so for each of them. -/
theorem exists_childrenOfYaml?_iff {node : Yaml} {value : Json}
    (ih : ∀ inside < room, ∀ item value, item.toJsonAt? inside = some value →
      Accepts definitions target value →
        ((∃ target, ofYaml? inside item = some target) ↔ item.WellSpelled))
    (h : node.toJsonAt? room = some value) (haccepts : Accepts definitions targets value) :
    (∃ targets, childrenOfYaml? room node = some targets) ↔ node.WellSpelled := by
  obtain ⟨values, rfl, hvalues⟩ := accepts_array_iff.mp haccepts
  obtain ⟨items, inside, rfl, rfl, hitems⟩ := seq_of_toJsonAt?_arr h
  rw [childrenOfYaml?, if_neg (Nat.succ_ne_zero inside), Nat.add_sub_cancel, exists_allOfYaml?_iff,
    wellSpelled_seq_iff]
  refine forall₂_congr fun item hitem => ?_
  obtain ⟨value, hvalue, hitem⟩ := exists_of_mem_items hitems hitem
  have htarget : Accepts definitions target value :=
    (accepts_congr (by rfl)).mp (hvalues value hvalue)
  exact ih inside (Nat.lt_succ_self inside) item value hitem htarget

/-- The fields of a target other than the children are read exactly when no key is repeated and the
unit is an unsigned whole number. -/
theorem exists_ofEntries?_iff
    (hfits : Fits definitions target.properties ["name"] room entries)
    (children : List TargetSpec) :
    (∃ target, ofEntries? entries children = some target) ↔
      (entries.map (·.1.text?)).Nodup ∧
      ∀ entry ∈ entries, entry.1.text? = some "mru_id" → entry.2.SpellsUnsigned := by
  have hkeys : keysFit fieldNames entries = true ↔ (entries.map (·.1.text?)).Nodup :=
    keysFit_iff_nodup hfits.known
  by_cases hnodup : (entries.map (·.1.text?)).Nodup
  · have hschema : property? target.properties "name" = some (string 1 none) := rfl
    obtain ⟨name, hname⟩ := hfits.exists_required_text hnodup hschema (List.mem_singleton_self _)
    have hschema : property? target.properties "phys_bin_path"
        = some (string 0 (some (HexPath.pattern, HexPath.patternText))) := rfl
    obtain ⟨physicalPath, hphysical⟩ := hfits.exists_optional_text hnodup hschema
    have hschema : property? target.properties "phys_dev_path" = some (string 0 none) := rfl
    obtain ⟨devicePath, hdevice⟩ := hfits.exists_optional_text hnodup hschema
    have hschema : property? target.properties "location_code" = some (string 0 none) := rfl
    obtain ⟨locationCode, hlocation⟩ := hfits.exists_optional_text hnodup hschema
    rw [ofEntries?, if_pos (hkeys.mpr hnodup)]
    simp only [hname, hphysical, hdevice, hlocation, Option.bind_eq_bind, Option.bind_some,
      Option.bind_eq_some_iff, Option.pure_def, Option.some.injEq, hnodup, true_and]
    cases hunit : Yaml.entry? "mru_id" entries with
    | none =>
      constructor
      · intro _ entry hentry hkey
        rw [entry?_eq_some_of_mem hnodup hentry hkey] at hunit
        cases hunit
      · intro _
        exact ⟨_, none, rfl, rfl⟩
    | some node =>
      have hschema : property? target.properties "mru_id" = some (integer 0 4294967295) := rfl
      obtain ⟨value, hvalue, haccepts⟩ := hfits.field hnodup hschema hunit
      have hiff := (exists_unit_iff hvalue haccepts).2
      constructor
      · rintro ⟨_, id, hid, -⟩ entry hentry hkey
        rw [entry?_eq_some_of_mem hnodup hentry hkey, Option.some.injEq] at hunit
        rw [hunit]
        exact hiff.mp ⟨id, hid⟩
      · intro hunits
        obtain ⟨entry, hentry, hkey, rfl⟩ := exists_of_entry?_eq_some hunit
        obtain ⟨id, hid⟩ := hiff.mpr (hunits entry hentry hkey)
        exact ⟨_, id, hid, rfl⟩
  · rw [ofEntries?, if_neg (mt hkeys.mp hnodup)]
    simp [hnodup]

/-- A member of a target other than the children is a text or a number. -/
theorem property?_of_ne_children {name : String} {schema : Schema} (hname : name ≠ "children")
    (h : property? target.properties name = some schema) :
    (∃ minLength pattern, schema = string minLength pattern) ∨ schema = integer 0 4294967295 := by
  have hmem : name ∈ fieldNames := mem_names_of_property? h
  simp only [fieldNames, List.mem_cons, List.not_mem_nil, or_false] at hmem
  rcases hmem with rfl | rfl | rfl | rfl | rfl | rfl
  · exact .inl ⟨1, none, (Option.some.inj h).symm⟩
  · exact .inl ⟨0, some (HexPath.pattern, HexPath.patternText), (Option.some.inj h).symm⟩
  · exact .inl ⟨0, none, (Option.some.inj h).symm⟩
  · exact .inl ⟨0, none, (Option.some.inj h).symm⟩
  · exact .inr (Option.some.inj h).symm
  · exact absurd rfl hname

/-- The children of a target with distinct keys are read exactly when every entry is well spelled.
-/
theorem exists_childrenOfEntries?_iff
    (ih : ∀ inside < room, ∀ item value, item.toJsonAt? inside = some value →
      Accepts definitions target value →
        ((∃ target, ofYaml? inside item = some target) ↔ item.WellSpelled))
    (hfits : Fits definitions target.properties ["name"] room entries)
    (hnodup : (entries.map (·.1.text?)).Nodup) :
    (∃ children, childrenOfEntries? room entries = some children) ↔
      ∀ entry ∈ entries, entry.2.WellSpelled := by
  -- An entry of another name is a scalar, in which nothing can be misspelled.
  have hscalar : ∀ entry ∈ entries, entry.1.text? ≠ some "children" → entry.2.WellSpelled := by
    intro entry hentry hother
    obtain ⟨name, hname, hkey⟩ := hfits.known entry hentry
    obtain ⟨schema, value, hschema, hvalue, haccepts⟩ := hfits.values hnodup entry hentry name hkey
    have hne : name ≠ "children" := fun heq => hother (heq ▸ hkey)
    rcases property?_of_ne_children hne hschema with ⟨_, _, rfl⟩ | rfl
    · obtain ⟨text, quoted, hnode, -⟩ := exists_text hvalue haccepts
      exact hnode ▸ .scalar text quoted
    · obtain ⟨⟨text, hnode⟩, -⟩ := exists_unit_iff hvalue haccepts
      exact hnode ▸ .scalar text false
  rw [childrenOfEntries?_eq]
  cases hchildren : Yaml.entry? "children" entries with
  | none =>
    constructor
    · intro _ entry hentry
      apply hscalar entry hentry
      intro hkey
      rw [entry?_eq_some_of_mem hnodup hentry hkey] at hchildren
      cases hchildren
    · intro _
      exact ⟨[], rfl⟩
  | some node =>
    have hschema : property? target.properties "children" = some targets := rfl
    obtain ⟨value, hvalue, haccepts⟩ := hfits.field hnodup hschema hchildren
    rw [exists_childrenOfYaml?_iff ih hvalue haccepts]
    constructor
    · intro hnode entry hentry
      by_cases hkey : entry.1.text? = some "children"
      · rw [entry?_eq_some_of_mem hnodup hentry hkey, Option.some.injEq] at hchildren
        rwa [hchildren]
      · exact hscalar entry hentry hkey
    · intro hinside
      obtain ⟨entry, hentry, -, rfl⟩ := exists_of_entry?_eq_some hchildren
      exact hinside entry hentry

/-- A target whose value the schema accepts is read exactly when it is well spelled. -/
theorem exists_ofYaml?_iff {node : Yaml} {value : Json} (h : node.toJsonAt? room = some value)
    (haccepts : Accepts definitions target value) :
    (∃ target, ofYaml? room node = some target) ↔ node.WellSpelled := by
  -- A target is a mapping and its children are a sequence inside, so that the targets among them
  -- have less room by two.
  induction room using Nat.strongRecOn generalizing node value with
  | ind room ih =>
    have htarget : target = object target.properties ["name"] := rfl
    rw [htarget] at haccepts
    obtain ⟨entries, inside, rfl, rfl, hfits⟩ := exists_fits h haccepts
    have hbelow : ∀ deeper < inside, ∀ item value, item.toJsonAt? deeper = some value →
        Accepts definitions target value →
          ((∃ target, ofYaml? deeper item = some target) ↔ item.WellSpelled) :=
      fun deeper hdeeper item value => ih deeper (by omega)
    rw [ofYaml?, if_neg (Nat.succ_ne_zero inside), Nat.add_sub_cancel, wellSpelled_map_iff]
    simp only [Option.bind_eq_bind, Option.bind_eq_some_iff]
    constructor
    · rintro ⟨spec, children, hchildren, hspec⟩
      obtain ⟨hnodup, hunits⟩ := (exists_ofEntries?_iff hfits children).mp ⟨spec, hspec⟩
      have hinside := (exists_childrenOfEntries?_iff hbelow hfits hnodup).mp ⟨children, hchildren⟩
      exact ⟨hnodup, hunits, hinside⟩
    · rintro ⟨hnodup, hunits, hinside⟩
      obtain ⟨children, hchildren⟩ :=
        (exists_childrenOfEntries?_iff hbelow hfits hnodup).mpr hinside
      obtain ⟨spec, hspec⟩ := (exists_ofEntries?_iff hfits children).mpr ⟨hnodup, hunits⟩
      exact ⟨spec, children, hchildren, hspec⟩

end TargetSpec

/-! ## Reading documents -/

namespace TargetDocument

open Yaml Schema

/-- The entries of a document with distinct keys are well spelled when its targets are. -/
theorem wellSpelled_entries_iff {room : Nat} {entries : List (Yaml × Yaml)} {node : Yaml}
    (hfits : Fits definitions targetDocument.properties ["targets"] room entries)
    (hnodup : (entries.map (·.1.text?)).Nodup)
    (htargets : Yaml.entry? "targets" entries = some node) :
    WellSpelled (.map entries) ↔ node.WellSpelled := by
  obtain ⟨found, hfound, -, hnode⟩ := exists_of_entry?_eq_some htargets
  have hcases : ∀ entry ∈ entries,
      entry.1.text? = some "location_code" ∨ entry.1.text? = some "targets" := by
    intro entry hentry
    obtain ⟨name, hname, hkey⟩ := hfits.known entry hentry
    have hmem : name ∈ fieldNames := hname
    simp only [fieldNames, List.mem_cons, List.not_mem_nil, or_false] at hmem
    rcases hmem with rfl | rfl
    · exact .inl hkey
    · exact .inr hkey
  rw [wellSpelled_map_iff]
  constructor
  · rintro ⟨-, -, hinside⟩
    exact hnode ▸ hinside found hfound
  · intro hwell
    refine ⟨hnodup, ?_, ?_⟩
    · -- A document itself has no unit.
      intro entry hentry hunit
      rcases hcases entry hentry with hkey | hkey <;> simp [hkey] at hunit
    · intro entry hentry
      rcases hcases entry hentry with hkey | hkey
      · obtain ⟨schema, value, hschema, hvalue, haccepts⟩ :=
          hfits.values hnodup entry hentry _ hkey
        cases hschema
        obtain ⟨text, quoted, hscalar, -⟩ := exists_text hvalue haccepts
        exact hscalar ▸ .scalar text quoted
      · rw [entry?_eq_some_of_mem hnodup hentry hkey, Option.some.injEq] at htargets
        exact htargets ▸ hwell

/-- A node whose value the schema accepts is a document exactly when it is well spelled. -/
theorem exists_ofYaml?_iff {node : Yaml} {value : Json} (h : node.toJson? = some value)
    (haccepts : schemaViolations value = []) :
    (∃ document, ofYaml? node = some document) ↔ node.WellSpelled := by
  have haccepts : Accepts definitions (object targetDocument.properties ["targets"]) value :=
    haccepts
  obtain ⟨entries, inside, rfl, hroom, hfits⟩ := exists_fits h haccepts
  obtain rfl : inside = maxDepth - 1 := by omega
  have hkeys : keysFit fieldNames entries = true ↔ (entries.map (·.1.text?)).Nodup :=
    keysFit_iff_nodup hfits.known
  by_cases hnodup : (entries.map (·.1.text?)).Nodup
  · have hschema : property? targetDocument.properties "location_code" = some (string 0 none) := rfl
    obtain ⟨locationCode, hlocation⟩ := hfits.exists_optional_text hnodup hschema
    obtain ⟨node, hnode⟩ := Option.isSome_iff_exists.mp
      (entry?_isSome_iff.mpr (hfits.needed "targets" (List.mem_singleton_self _)))
    have hschema : property? targetDocument.properties "targets" = some Schema.targets := rfl
    obtain ⟨value, hvalue, haccepts⟩ := hfits.field hnodup hschema hnode
    have htargets := TargetSpec.exists_childrenOfYaml?_iff
      (fun _ _ _ _ h haccepts => TargetSpec.exists_ofYaml?_iff h haccepts) hvalue haccepts
    rw [wellSpelled_entries_iff hfits hnodup hnode, ← htargets, ofYaml?,
      if_pos (hkeys.mpr hnodup)]
    simp only [hlocation, hnode, Option.bind_eq_bind, Option.bind_some, Option.bind_eq_some_iff,
      Option.pure_def, Option.some.injEq]
    constructor
    · rintro ⟨_, targets, htargets, -⟩
      exact ⟨targets, htargets⟩
    · rintro ⟨targets, htargets⟩
      exact ⟨_, targets, htargets, rfl⟩
  · rw [ofYaml?, if_neg (mt hkeys.mp hnodup), wellSpelled_map_iff]
    simp [hnodup]

end TargetDocument

end FirstFailure
