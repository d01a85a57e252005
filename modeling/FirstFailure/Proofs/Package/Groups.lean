import FirstFailure.Package.Groups
import Mathlib.Data.List.Induction
import Mathlib.Data.List.Nodup
import Mathlib.Data.List.Perm.Basic
/-!
# Grouping in one pass

`Groups.ofList` builds the groups from the last package to the first. Inserting the packages from
the first to the last builds the same groups: putting a package in front and adding one behind do
not get into each other's way, whatever their log ids.

What the groups are is said by `Groups.toList_ofList`: one group for each log id, in the order in
which the log ids first appear, with the packages of that log id in their order. Grouping neither
loses nor repeats a package.
-/

namespace FirstFailure

namespace Groups

/-! ## What inserting does to a group -/

theorem get?_insert_self (groups : Groups) (package : Package) :
    (groups.insert package).get? package.logId
      = some ((groups.get? package.logId).getD [] ++ [package]) := by
  obtain ⟨list⟩ := groups
  induction list with
  | nil => simp [insert, get?, insertInto]
  | cons group rest ih =>
    obtain ⟨id, packages⟩ := group
    by_cases h : id = package.logId
    · simp [insert, get?, insertInto, h]
    · simpa [insert, get?, insertInto, h] using ih

theorem get?_insert_of_ne (groups : Groups) {package : Package} {logId : UInt16}
    (h : logId ≠ package.logId) : (groups.insert package).get? logId = groups.get? logId := by
  obtain ⟨list⟩ := groups
  induction list with
  | nil => simp [insert, get?, insertInto, Ne.symm h]
  | cons group rest ih =>
    obtain ⟨id, packages⟩ := group
    by_cases hlog : id = logId
    · simp [insert, get?, insertInto, hlog, h]
    · by_cases hid : id = package.logId
      · simp [insert, get?, insertInto, hid, Ne.symm h]
      · simpa [insert, get?, insertInto, hid, hlog] using ih

/-- Without its own group, nothing is left of an inserted package. -/
theorem eraseP_insertInto_same (package : Package) (groups : List (UInt16 × List Package)) :
    (insertInto package groups).eraseP (·.1 = package.logId)
      = groups.eraseP (·.1 = package.logId) := by
  induction groups with
  | nil => simp [insertInto]
  | cons group rest ih =>
    obtain ⟨id, packages⟩ := group
    by_cases h : id = package.logId
    · simp [insertInto, h]
    · simp [insertInto, h, ih]

/-- Inserting and removing the group of another log id may change places. -/
theorem eraseP_insertInto_other {package : Package} {logId : UInt16}
    (h : logId ≠ package.logId) (groups : List (UInt16 × List Package)) :
    (insertInto package groups).eraseP (·.1 = logId)
      = insertInto package (groups.eraseP (·.1 = logId)) := by
  induction groups with
  | nil => simp [insertInto, Ne.symm h]
  | cons group rest ih =>
    obtain ⟨id, packages⟩ := group
    by_cases hlog : id = logId
    · have hid : id ≠ package.logId := fun e => h (hlog.symm.trans e)
      simp [insertInto, hlog, h]
    · by_cases hid : id = package.logId
      · simp [insertInto, hid, Ne.symm h]
      · simp [insertInto, hid, hlog, ih]

/-! ## Both directions agree -/

/-- A package in front and a package behind may be added in either order. -/
theorem prepend_insert (first last : Package) (groups : Groups) :
    prepend first (groups.insert last) = (prepend first groups).insert last := by
  by_cases h : first.logId = last.logId
  · simp only [prepend, h, get?_insert_self]
    simp [insert, insertInto, eraseP_insertInto_same]
  · simp only [prepend, get?_insert_of_ne groups h]
    simp [insert, insertInto, h, eraseP_insertInto_other h]

theorem ofList_append_singleton (packages : List Package) (last : Package) :
    ofList (packages ++ [last]) = (ofList packages).insert last := by
  induction packages with
  | nil => rfl
  | cons first rest ih =>
    show prepend first (ofList (rest ++ [last])) = (prepend first (ofList rest)).insert last
    rw [ih, prepend_insert]

theorem ofList_append (before packages : List Package) :
    ofList (before ++ packages) = packages.foldl insert (ofList before) := by
  induction packages generalizing before with
  | nil => simp
  | cons package rest ih =>
    rw [List.foldl_cons, ← ofList_append_singleton, ← ih]
    simp

/-- Grouping a list is inserting its packages one by one. -/
theorem ofList_eq_foldl_insert (packages : List Package) :
    ofList packages = packages.foldl insert empty :=
  ofList_append [] packages

theorem isEmpty_ofList (packages : List Package) :
    (ofList packages).isEmpty = true ↔ packages = [] := by
  cases packages with
  | nil => exact ⟨fun _ => rfl, fun _ => rfl⟩
  | cons package rest => exact ⟨nofun, nofun⟩

/-! ## What the groups are -/

/-- The packages of one log id, in their order. -/
def ofLogId (logId : UInt16) (packages : List Package) : List Package :=
  packages.filter (·.logId = logId)

/-- The groups of the given log ids, in their order. -/
def groupsOver (packages : List Package) (logIds : List UInt16) :
    List (UInt16 × List Package) :=
  logIds.map fun logId => (logId, ofLogId logId packages)

theorem ofLogId_eq_nil_iff {logId : UInt16} {packages : List Package} :
    ofLogId logId packages = [] ↔ logId ∉ packages.map (·.logId) := by
  simp [ofLogId]

theorem ofLogId_concat_self (packages : List Package) (last : Package) :
    ofLogId last.logId (packages ++ [last]) = ofLogId last.logId packages ++ [last] := by
  simp [ofLogId]

theorem ofLogId_concat_of_ne (packages : List Package) {last : Package} {logId : UInt16}
    (h : last.logId ≠ logId) : ofLogId logId (packages ++ [last]) = ofLogId logId packages := by
  simp [ofLogId, h]

@[simp] theorem groupsOver_cons (packages : List Package) (logId : UInt16)
    (rest : List UInt16) :
    groupsOver packages (logId :: rest)
      = (logId, ofLogId logId packages) :: groupsOver packages rest := rfl

theorem groupsOver_concat_of_not_mem (packages : List Package) {last : Package}
    {logIds : List UInt16} (h : last.logId ∉ logIds) :
    groupsOver (packages ++ [last]) logIds = groupsOver packages logIds := by
  apply List.map_congr_left
  intro logId hlogId
  have hne : last.logId ≠ logId := fun e => h (e ▸ hlogId)
  rw [ofLogId_concat_of_ne packages hne]

/-- Inserting a package extends its group, which is the only one of its log id, or opens one. -/
theorem insertInto_groupsOver (packages : List Package) (last : Package) {logIds : List UInt16}
    (hnodup : logIds.Nodup) :
    insertInto last (groupsOver packages logIds)
      = groupsOver (packages ++ [last]) logIds
        ++ if last.logId ∈ logIds then [] else [(last.logId, [last])] := by
  induction logIds with
  | nil => simp [groupsOver, insertInto]
  | cons logId rest ih =>
    obtain ⟨hlogId, hrest⟩ := List.nodup_cons.mp hnodup
    by_cases h : logId = last.logId
    · subst h
      simp [insertInto, ofLogId_concat_self, groupsOver_concat_of_not_mem packages hlogId]
    · simp [insertInto, h, Ne.symm h, ofLogId_concat_of_ne packages (Ne.symm h), ih hrest]

/-- Only a first appearance counts: a last log id that was there before changes nothing. -/
theorem eraseDups_concat (logIds : List UInt16) (last : UInt16) :
    (logIds ++ [last]).eraseDups
      = logIds.eraseDups ++ if last ∈ logIds then [] else [last] := by
  by_cases h : last ∈ logIds
  · simp [List.eraseDups_append, List.removeAll, h]
  · simp [List.eraseDups_append, List.removeAll, h, List.eraseDups_cons]

theorem nodup_eraseDups (logIds : List UInt16) : logIds.eraseDups.Nodup := by
  induction logIds using List.reverseRecOn with
  | nil => simp
  | append_singleton logIds last ih =>
    rw [eraseDups_concat]
    by_cases h : last ∈ logIds
    · simpa [h] using ih
    · simpa [h] using ih.concat (by simpa using h)

/-- The groups of packages: one for each log id, in the order of first appearance. -/
theorem toList_ofList (packages : List Package) :
    (ofList packages).toList = groupsOver packages (packages.map (·.logId)).eraseDups := by
  induction packages using List.reverseRecOn with
  | nil => rfl
  | append_singleton packages last ih =>
    rw [ofList_append_singleton, insert, ih, insertInto_groupsOver _ _ (nodup_eraseDups _),
      List.map_append, List.map_singleton, eraseDups_concat]
    by_cases h : last.logId ∈ packages.map (·.logId)
    · rw [if_pos (List.mem_eraseDups.mpr h), if_pos h, List.append_nil, List.append_nil]
    · have hnone := ofLogId_eq_nil_iff.mpr h
      rw [if_neg (fun hmem => h (List.mem_eraseDups.mp hmem)), if_neg h]
      simp [groupsOver, ofLogId_concat_self, hnone]

theorem logIds_ofList (packages : List Package) :
    (ofList packages).logIds = (packages.map (·.logId)).eraseDups := by
  rw [logIds, toList_ofList, groupsOver, List.map_map]
  exact List.map_id _

theorem find?_groupsOver (packages : List Package) (logIds : List UInt16) (logId : UInt16) :
    (groupsOver packages logIds).find? (·.1 = logId)
      = if logId ∈ logIds then some (logId, ofLogId logId packages) else none := by
  induction logIds with
  | nil => rfl
  | cons first rest ih =>
    by_cases h : first = logId
    · simp [h]
    · simp [h, Ne.symm h, ih]

/-- A group is found by its log id if some package has it. -/
theorem get?_ofList (packages : List Package) (logId : UInt16) :
    (ofList packages).get? logId
      = if logId ∈ packages.map (·.logId) then some (ofLogId logId packages) else none := by
  rw [get?, toList_ofList, find?_groupsOver]
  by_cases h : logId ∈ packages.map (·.logId)
  · rw [if_pos h, if_pos (List.mem_eraseDups.mpr h), Option.map_some]
  · rw [if_neg h, if_neg (fun hmem => h (List.mem_eraseDups.mp hmem)), Option.map_none]

/-- Packages of one new log id, put in front, make one new group in front. -/
theorem foldr_prepend_of_logId (groups : Groups) {logId : UInt16}
    (hnew : logId ∉ groups.logIds) {packages : List Package} (hne : packages ≠ [])
    (h : ∀ package ∈ packages, package.logId = logId) :
    packages.foldr prepend groups = ⟨(logId, packages) :: groups.toList⟩ := by
  induction packages with
  | nil => exact absurd rfl hne
  | cons first rest ih =>
    have hfirst : first.logId = logId := h first (by simp)
    rw [List.foldr_cons]
    cases rest with
    | nil =>
      have hothers : ∀ group ∈ groups.toList, ¬ decide (group.1 = logId) = true := by
        intro group hgroup
        rw [decide_eq_true_iff]
        exact fun heq => hnew (List.mem_map.mpr ⟨group, hgroup, heq⟩)
      rw [List.foldr_nil, prepend, hfirst, get?, List.find?_eq_none.mpr hothers,
        List.eraseP_of_forall_not hothers]
      rfl
    | cons second others =>
      rw [ih (by simp) (fun package hpackage => h package (by simp [hpackage]))]
      simp [prepend, get?, hfirst]

/-- Packages of one log id make one group. -/
theorem ofList_of_logId (logId : UInt16) {packages : List Package} (hne : packages ≠ [])
    (h : ∀ package ∈ packages, package.logId = logId) :
    ofList packages = ⟨[(logId, packages)]⟩ :=
  foldr_prepend_of_logId empty nofun hne h

theorem packages_insert_perm (groups : Groups) (package : Package) :
    (groups.insert package).packages.Perm (groups.packages ++ [package]) := by
  obtain ⟨list⟩ := groups
  simp only [packages, insert]
  induction list with
  | nil => simp [insertInto]
  | cons group rest ih =>
    obtain ⟨logId, members⟩ := group
    by_cases h : logId = package.logId
    · simp only [insertInto, if_pos h, List.flatMap_cons, List.append_assoc]
      exact List.perm_append_comm.append_left members
    · simp only [insertInto, if_neg h, List.flatMap_cons, List.append_assoc]
      exact ih.append_left members

/-- Grouping loses no package and repeats none. -/
theorem packages_ofList_perm (packages : List Package) :
    (ofList packages).packages.Perm packages := by
  induction packages using List.reverseRecOn with
  | nil => rfl
  | append_singleton packages last ih =>
    rw [ofList_append_singleton]
    exact (packages_insert_perm _ last).trans (ih.append_right [last])

end Groups

end FirstFailure
