import FirstFailure.Yaml.Scalar
/-!
# JSON values of nodes

A collection becomes a collection, and only text becomes text. The members of an object come from
the entries of its mapping: every entry leaves its name among them, every member has the value of
some entry, and where no name is repeated every entry is a member.
-/

namespace FirstFailure

namespace Json

/-! ## Setting a member -/

theorem mem_setSorted_self (name : String) (value : Json) (members : List (String × Json)) :
    (name, value) ∈ setSorted name value members := by
  induction members with
  | nil => exact List.mem_singleton_self _
  | cons member rest ih =>
    unfold setSorted
    split
    · exact .head _
    · split
      · exact .head _
      · exact .tail _ ih

theorem mem_setSorted_of_ne {name key : String} {value old : Json}
    {members : List (String × Json)} (h : (key, old) ∈ members) (hne : key ≠ name) :
    (key, old) ∈ setSorted name value members := by
  induction members with
  | nil => cases h
  | cons member rest ih =>
    unfold setSorted
    split
    next heq =>
      rcases List.mem_cons.mp h with hfirst | hrest
      · exact absurd (by rw [← hfirst] at heq; exact heq.symm) hne
      · exact .tail _ hrest
    next =>
      split
      · exact .tail _ h
      · rcases List.mem_cons.mp h with hfirst | hrest
        · exact hfirst ▸ .head _
        · exact .tail _ (ih hrest)

theorem mem_of_mem_setSorted {name key : String} {value old : Json}
    {members : List (String × Json)} (h : (key, old) ∈ setSorted name value members) :
    (key, old) = (name, value) ∨ (key, old) ∈ members := by
  induction members with
  | nil => exact .inl (List.mem_singleton.mp h)
  | cons member rest ih =>
    unfold setSorted at h
    split at h
    · exact (List.mem_cons.mp h).imp_right (.tail _)
    · split at h
      · exact List.mem_cons.mp h
      · rcases List.mem_cons.mp h with hfirst | hrest
        · exact .inr (hfirst ▸ .head _)
        · exact (ih hrest).imp_right (.tail _)

end Json

namespace Yaml

/-! ## Members and items -/

theorem entriesToJson?_cons_eq_some_iff {room : Nat} {members result : List (String × Json)}
    {entry : Yaml × Yaml} {rest : List (Yaml × Yaml)} :
    entriesToJson? room members (entry :: rest) = some result ↔
      ∃ name value, entry.1.text? = some name ∧ entry.2.toJsonAt? room = some value ∧
        entriesToJson? room (Json.setSorted name value members) rest = some result := by
  obtain ⟨key, node⟩ := entry
  simp only [entriesToJson?, Option.bind_eq_bind, Option.bind_eq_some_iff]
  constructor
  · rintro ⟨name, hname, value, hvalue, hrest⟩
    exact ⟨name, value, hname, hvalue, hrest⟩
  · rintro ⟨name, value, hname, hvalue, hrest⟩
    exact ⟨name, hname, value, hvalue, hrest⟩

/-- A member that was there before stays unless an entry has its name. -/
theorem mem_of_not_mem_keys {room : Nat} {members result : List (String × Json)}
    {entries : List (Yaml × Yaml)} (h : entriesToJson? room members entries = some result)
    {name : String} {value : Json} (hmember : (name, value) ∈ members)
    (hnew : some name ∉ entries.map (·.1.text?)) : (name, value) ∈ result := by
  induction entries generalizing members with
  | nil =>
    cases h
    exact hmember
  | cons entry rest ih =>
    obtain ⟨key, _, hkey, -, hrest⟩ := entriesToJson?_cons_eq_some_iff.mp h
    rw [List.map_cons, List.mem_cons, not_or, hkey] at hnew
    exact ih hrest (Json.mem_setSorted_of_ne hmember fun heq => hnew.1 (congrArg some heq)) hnew.2

/-- The name of a member stays whatever entries follow. -/
theorem name_mem_of_mem {room : Nat} {members result : List (String × Json)}
    {entries : List (Yaml × Yaml)} (h : entriesToJson? room members entries = some result)
    {name : String} (hname : name ∈ members.map (·.1)) : name ∈ result.map (·.1) := by
  induction entries generalizing members with
  | nil =>
    cases h
    exact hname
  | cons entry rest ih =>
    obtain ⟨key, value, -, -, hrest⟩ := entriesToJson?_cons_eq_some_iff.mp h
    refine ih hrest ?_
    obtain ⟨⟨first, old⟩, hmember, rfl⟩ := List.mem_map.mp hname
    by_cases heq : first = key
    · exact List.mem_map.mpr ⟨_, Json.mem_setSorted_self key value members, heq.symm⟩
    · exact List.mem_map.mpr ⟨_, Json.mem_setSorted_of_ne hmember heq, rfl⟩

theorem exists_of_mem_entries {room : Nat} {members result : List (String × Json)}
    {entries : List (Yaml × Yaml)} (h : entriesToJson? room members entries = some result)
    {entry : Yaml × Yaml} (hentry : entry ∈ entries) :
    ∃ name value, entry.1.text? = some name ∧ entry.2.toJsonAt? room = some value ∧
      name ∈ result.map (·.1) := by
  induction entries generalizing members with
  | nil => cases hentry
  | cons first rest ih =>
    obtain ⟨name, value, hname, hvalue, hrest⟩ := entriesToJson?_cons_eq_some_iff.mp h
    rcases List.mem_cons.mp hentry with rfl | hentry
    · refine ⟨name, value, hname, hvalue, name_mem_of_mem hrest ?_⟩
      exact List.mem_map.mpr ⟨_, Json.mem_setSorted_self name value members, rfl⟩
    · exact ih hrest hentry

/-- Where no name is repeated every entry is a member. -/
theorem mem_of_mem_entries {room : Nat} {members result : List (String × Json)}
    {entries : List (Yaml × Yaml)} (h : entriesToJson? room members entries = some result)
    (hnodup : (entries.map (·.1.text?)).Nodup) {entry : Yaml × Yaml} (hentry : entry ∈ entries) :
    ∃ name value, entry.1.text? = some name ∧ entry.2.toJsonAt? room = some value ∧
      (name, value) ∈ result := by
  induction entries generalizing members with
  | nil => cases hentry
  | cons first rest ih =>
    obtain ⟨name, value, hname, hvalue, hrest⟩ := entriesToJson?_cons_eq_some_iff.mp h
    rw [List.map_cons, List.nodup_cons, hname] at hnodup
    rcases List.mem_cons.mp hentry with rfl | hentry
    · exact ⟨name, value, hname, hvalue,
        mem_of_not_mem_keys hrest (Json.mem_setSorted_self name value members) hnodup.1⟩
    · exact ih hrest hnodup.2 hentry

theorem exists_entry_of_mem {room : Nat} {members result : List (String × Json)}
    {entries : List (Yaml × Yaml)} (h : entriesToJson? room members entries = some result)
    {name : String} {value : Json} (hmember : (name, value) ∈ result) :
    (name, value) ∈ members ∨
      ∃ entry ∈ entries, entry.1.text? = some name ∧ entry.2.toJsonAt? room = some value := by
  induction entries generalizing members with
  | nil =>
    cases h
    exact .inl hmember
  | cons entry rest ih =>
    obtain ⟨key, first, hkey, hfirst, hrest⟩ := entriesToJson?_cons_eq_some_iff.mp h
    rcases ih hrest with hold | ⟨later, hlater, hvalue⟩
    · rcases Json.mem_of_mem_setSorted hold with heq | hold
      · cases heq
        exact .inr ⟨entry, .head _, hkey, hfirst⟩
      · exact .inl hold
    · exact .inr ⟨later, .tail _ hlater, hvalue⟩

theorem exists_of_mem_items {room : Nat} {items : List Yaml} {values : List Json}
    (h : itemsToJson? room items = some values) {item : Yaml} (hitem : item ∈ items) :
    ∃ value ∈ values, item.toJsonAt? room = some value := by
  induction items generalizing values with
  | nil => cases hitem
  | cons first rest ih =>
    simp only [itemsToJson?, Option.bind_eq_bind, Option.bind_eq_some_iff, Option.pure_def,
      Option.some.injEq] at h
    obtain ⟨value, hfirst, others, hrest, rfl⟩ := h
    rcases List.mem_cons.mp hitem with rfl | hitem
    · exact ⟨value, .head _, hfirst⟩
    · obtain ⟨other, hother, hvalue⟩ := ih hrest hitem
      exact ⟨other, .tail _ hother, hvalue⟩

/-! ## Nodes by the kind of their value -/

/-- What a plain scalar may have for a value. A number or a text does not spell `null`, and a whole
number is apart from the other numbers. -/
theorem plain_cases {text : String} {value : Json} (h : (resolve text).toJson? = some value) :
    (value = .null ∨ ∃ truth, value = .bool truth) ∨
    (∃ n, value = .int n ∧ spellsNull text = false ∧ integer? text.toList = some n) ∨
    (∃ x, value = .real x ∧ spellsNull text = false ∧ integer? text.toList = none) ∨
    value = .str text ∧ spellsNull text = false := by
  unfold resolve at h
  cases hnull : spellsNull text with
  | true =>
    simp only [hnull, if_true, Scalar.toJson?, Option.some.injEq] at h
    exact .inl (.inl h.symm)
  | false =>
    simp only [hnull, Bool.false_eq_true, if_false] at h
    split at h
    next truth htruth =>
      cases h
      exact .inl (.inr ⟨truth, rfl⟩)
    next =>
      split at h
      next n hn =>
        have hvalue : value = .int n := by
          simp only [Scalar.toJson?] at h
          split at h <;> cases h
          rfl
        exact .inr (.inl ⟨n, hvalue, rfl, hn⟩)
      next hinteger =>
        split at h
        next x hreal =>
          cases x with
          | none =>
            cases h
            exact .inl (.inl rfl)
          | some x =>
            cases h
            exact .inr (.inr (.inl ⟨x, rfl, rfl, hinteger⟩))
        next =>
          cases h
          exact .inr (.inr (.inr ⟨rfl, rfl⟩))

theorem toJsonAt?_cases {room : Nat} {node : Yaml} {value : Json}
    (h : node.toJsonAt? room = some value) :
    (∃ text, node = .scalar text true ∧ value = .str text) ∨
    (∃ text, node = .scalar text false ∧ (resolve text).toJson? = some value) ∨
    (∃ items inside values, node = .seq items ∧ room = inside + 1 ∧ value = .arr values ∧
      itemsToJson? inside items = some values) ∨
    ∃ entries inside members, node = .map entries ∧ room = inside + 1 ∧ value = .obj members ∧
      entriesToJson? inside [] entries = some members := by
  cases node with
  | scalar text quoted =>
    cases quoted with
    | true =>
      rw [toJsonAt?, Option.some.injEq] at h
      exact .inl ⟨text, rfl, h.symm⟩
    | false =>
      rw [toJsonAt?] at h
      exact .inr (.inl ⟨text, rfl, h⟩)
  | seq items =>
    cases room with
    | zero => simp [toJsonAt?] at h
    | succ inside =>
      rw [toJsonAt?, if_neg (Nat.succ_ne_zero inside), Nat.add_sub_cancel,
        Option.map_eq_some_iff] at h
      obtain ⟨values, hvalues, hvalue⟩ := h
      exact .inr (.inr (.inl ⟨items, inside, values, rfl, rfl, hvalue.symm, hvalues⟩))
  | map entries =>
    cases room with
    | zero => simp [toJsonAt?] at h
    | succ inside =>
      rw [toJsonAt?, if_neg (Nat.succ_ne_zero inside), Nat.add_sub_cancel,
        Option.map_eq_some_iff] at h
      obtain ⟨members, hmembers, hvalue⟩ := h
      exact .inr (.inr (.inr ⟨entries, inside, members, rfl, rfl, hvalue.symm, hmembers⟩))

theorem scalar_of_toJsonAt?_str {room : Nat} {node : Yaml} {text : String}
    (h : node.toJsonAt? room = some (.str text)) :
    ∃ quoted, node = .scalar text quoted ∧ (quoted = false → spellsNull text = false) := by
  obtain ⟨_, rfl, heq⟩ | ⟨text, rfl, hplain⟩ | ⟨_, _, _, -, -, heq, -⟩ | ⟨_, _, _, -, -, heq, -⟩ :=
    toJsonAt?_cases h
  · cases heq
    exact ⟨true, rfl, fun hquoted => absurd hquoted (by decide)⟩
  · rcases plain_cases hplain with (heq | ⟨_, heq⟩) | ⟨_, heq, -⟩ | ⟨_, heq, -⟩ | ⟨heq, hnull⟩ <;>
      cases heq
    exact ⟨false, rfl, fun _ => hnull⟩
  · cases heq
  · cases heq

theorem scalar_of_toJsonAt?_int {room : Nat} {node : Yaml} {n : Int}
    (h : node.toJsonAt? room = some (.int n)) :
    ∃ text, node = .scalar text false ∧ spellsNull text = false ∧
      integer? text.toList = some n := by
  obtain ⟨_, -, heq⟩ | ⟨text, rfl, hplain⟩ | ⟨_, _, _, -, -, heq, -⟩ | ⟨_, _, _, -, -, heq, -⟩ :=
    toJsonAt?_cases h
  · cases heq
  · rcases plain_cases hplain with (heq | ⟨_, heq⟩) | ⟨_, heq, hint⟩ | ⟨_, heq, -⟩ | ⟨heq, -⟩ <;>
      cases heq
    exact ⟨text, rfl, hint⟩
  · cases heq
  · cases heq

theorem scalar_of_toJsonAt?_real {room : Nat} {node : Yaml} {x : Binary64}
    (h : node.toJsonAt? room = some (.real x)) :
    ∃ text, node = .scalar text false ∧ spellsNull text = false ∧
      integer? text.toList = none := by
  obtain ⟨_, -, heq⟩ | ⟨text, rfl, hplain⟩ | ⟨_, _, _, -, -, heq, -⟩ | ⟨_, _, _, -, -, heq, -⟩ :=
    toJsonAt?_cases h
  · cases heq
  · rcases plain_cases hplain with (heq | ⟨_, heq⟩) | ⟨_, heq, -⟩ | ⟨_, heq, hreal⟩ | ⟨heq, -⟩ <;>
      cases heq
    exact ⟨text, rfl, hreal⟩
  · cases heq
  · cases heq

theorem seq_of_toJsonAt?_arr {room : Nat} {node : Yaml} {values : List Json}
    (h : node.toJsonAt? room = some (.arr values)) :
    ∃ items inside, node = .seq items ∧ room = inside + 1 ∧
      itemsToJson? inside items = some values := by
  obtain ⟨_, -, heq⟩ | ⟨_, -, hplain⟩ | ⟨items, inside, _, rfl, rfl, heq, hvalues⟩ |
    ⟨_, _, _, -, -, heq, -⟩ := toJsonAt?_cases h
  · cases heq
  · rcases plain_cases hplain with (heq | ⟨_, heq⟩) | ⟨_, heq, -⟩ | ⟨_, heq, -⟩ | ⟨heq, -⟩ <;>
      cases heq
  · cases heq
    exact ⟨items, inside, rfl, rfl, hvalues⟩
  · cases heq

theorem map_of_toJsonAt?_obj {room : Nat} {node : Yaml} {members : List (String × Json)}
    (h : node.toJsonAt? room = some (.obj members)) :
    ∃ entries inside, node = .map entries ∧ room = inside + 1 ∧
      entriesToJson? inside [] entries = some members := by
  obtain ⟨_, -, heq⟩ | ⟨_, -, hplain⟩ | ⟨_, _, _, -, -, heq, -⟩ |
    ⟨entries, inside, _, rfl, rfl, heq, hmembers⟩ := toJsonAt?_cases h
  · cases heq
  · rcases plain_cases hplain with (heq | ⟨_, heq⟩) | ⟨_, heq, -⟩ | ⟨_, heq, -⟩ | ⟨heq, -⟩ <;>
      cases heq
  · cases heq
  · cases heq
    exact ⟨entries, inside, rfl, rfl, hmembers⟩

end Yaml

end FirstFailure
