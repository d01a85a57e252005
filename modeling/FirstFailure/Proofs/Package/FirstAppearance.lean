import FirstFailure.Proofs.Package.Groups
import Mathlib.Data.Finset.Card
import Mathlib.Data.Finset.Dedup
/-!
# Groups in the order of first appearance

Inserting packages one by one groups them by log id. There is one group for each log id, a group
stands where its log id appeared first, and it holds the packages of that log id in the order of
insertion. Groups are therefore determined by what they hold: inserting their packages again, group
by group, gives the same groups. Packages of different log ids do not meet, so it shows in no group
which of two neighbours was inserted first.
-/

namespace FirstFailure

namespace Groups

/-! ## The order of log ids -/

/-- Where only first appearances are kept, they keep their order. -/
theorem pairwise_idxOf_eraseDups (logIds : List UInt16) :
    logIds.eraseDups.Pairwise fun earlier later =>
      logIds.idxOf earlier < logIds.idxOf later := by
  induction logIds using List.reverseRecOn with
  | nil => exact .nil
  | append_singleton logIds last ih =>
    have hkept : ∀ logId ∈ logIds.eraseDups,
        (logIds ++ [last]).idxOf logId = logIds.idxOf logId :=
      fun logId hlogId => List.idxOf_append_of_mem (List.mem_eraseDups.mp hlogId)
    have hbefore : logIds.eraseDups.Pairwise fun earlier later =>
        (logIds ++ [last]).idxOf earlier < (logIds ++ [last]).idxOf later :=
      ih.imp_of_mem fun hearlier hlater hlt => by rwa [hkept _ hearlier, hkept _ hlater]
    rw [eraseDups_concat]
    by_cases hlast : last ∈ logIds
    · rwa [if_pos hlast, List.append_nil]
    · rw [if_neg hlast, List.pairwise_append]
      refine ⟨hbefore, List.pairwise_singleton _ _, ?_⟩
      intro earlier hearlier later hlater
      rw [List.mem_singleton.mp hlater, hkept _ hearlier, List.idxOf_append_of_notMem hlast,
        List.idxOf_cons_self, Nat.add_zero]
      exact List.idxOf_lt_length_of_mem (List.mem_eraseDups.mp hearlier)

theorem length_eraseDups (logIds : List UInt16) :
    logIds.eraseDups.length = logIds.toFinset.card := by
  have hsame : logIds.eraseDups.toFinset = logIds.toFinset := by
    ext logId
    rw [List.mem_toFinset, List.mem_toFinset, List.mem_eraseDups]
  rw [← List.toFinset_card_of_nodup (nodup_eraseDups logIds), hsame]

/-! ## What the groups hold -/

theorem mem_toList_ofList {packages members : List Package} {logId : UInt16}
    (h : (logId, members) ∈ (ofList packages).toList) :
    logId ∈ packages.map (·.logId) ∧ members = ofLogId logId packages := by
  rw [toList_ofList, groupsOver, List.mem_map] at h
  obtain ⟨_, hlogId, heq⟩ := h
  cases heq
  exact ⟨List.mem_eraseDups.mp hlogId, rfl⟩

theorem packageCount_eq (groups : Groups) : groups.packageCount = groups.packages.length := by
  rw [packageCount, packages, List.length_flatMap, List.sum_eq_foldr]

theorem get?_ofList_eq_none_iff {packages : List Package} {logId : UInt16} :
    (ofList packages).get? logId = none ↔ ∀ package ∈ packages, package.logId ≠ logId := by
  rw [get?_ofList, ite_eq_right_iff]
  simp

/-! ## Groups made again -/

/-- A row of groups with different log ids, each with packages of its own log id, is what its
packages make when they are inserted again. -/
theorem ofList_flatMap {groups : List (UInt16 × List Package)}
    (hnodup : (groups.map (·.1)).Nodup)
    (hmembers : ∀ group ∈ groups, group.2 ≠ [] ∧ ∀ package ∈ group.2, package.logId = group.1) :
    ofList (groups.flatMap (·.2)) = ⟨groups⟩ := by
  induction groups with
  | nil => rfl
  | cons group rest ih =>
    obtain ⟨hnew, hrest⟩ := List.nodup_cons.mp hnodup
    obtain ⟨hne, hlogId⟩ := hmembers group (.head _)
    have hothers := ih hrest fun other hother => hmembers other (.tail _ hother)
    rw [List.flatMap_cons, ofList, List.foldr_append, ← ofList, hothers]
    exact foldr_prepend_of_logId ⟨rest⟩ hnew hne hlogId

theorem ofList_packages_ofList (packages : List Package) :
    ofList (ofList packages).packages = ofList packages := by
  refine ofList_flatMap ?_ ?_
  · show (ofList packages).logIds.Nodup
    rw [logIds_ofList]
    exact nodup_eraseDups _
  · rintro ⟨logId, members⟩ hgroup
    obtain ⟨hlogId, rfl⟩ := mem_toList_ofList hgroup
    refine ⟨fun hnil => ofLogId_eq_nil_iff.mp hnil hlogId, ?_⟩
    intro package hpackage
    simpa using (List.mem_filter.mp hpackage).2

/-- Two neighbours of different log ids may change places: no group shows it. -/
theorem get?_ofList_swap (before after : List Package) {first second : Package}
    (h : first.logId ≠ second.logId) (logId : UInt16) :
    (ofList (before ++ first :: second :: after)).get? logId
      = (ofList (before ++ second :: first :: after)).get? logId := by
  have hperm : (before ++ first :: second :: after).Perm (before ++ second :: first :: after) :=
    (List.Perm.swap second first after).append_left before
  have hsame : ofLogId logId (before ++ first :: second :: after)
      = ofLogId logId (before ++ second :: first :: after) := by
    simp only [ofLogId, List.filter_append, List.filter_cons]
    by_cases hfirst : first.logId = logId
    · have hsecond : second.logId ≠ logId := fun heq => h (hfirst.trans heq.symm)
      simp [hfirst, hsecond]
    · simp [hfirst]
  rw [get?_ofList, get?_ofList, hsame]
  simp only [(hperm.map (·.logId)).mem_iff]

/-! ## Inserting one by one -/

/-- Groups that hold packages by log id, in the order of first appearance. -/
structure ByFirstAppearance (packages : List Package) (groups : Groups) : Prop where
  /-- No log id has two groups. -/
  nodup : groups.logIds.Nodup
  /-- The log ids are those of the packages. -/
  mem_logIds : ∀ logId, logId ∈ groups.logIds ↔ ∃ package ∈ packages, package.logId = logId
  /-- A log id that appears first comes first. -/
  order : groups.logIds.Pairwise fun earlier later =>
    (packages.map (·.logId)).idxOf earlier < (packages.map (·.logId)).idxOf later
  /-- A group is not empty and has the packages of its log id in their order. -/
  members : ∀ logId members, (logId, members) ∈ groups.toList →
    members ≠ [] ∧ members = packages.filter (·.logId = logId)
  /-- A log id that some package has is found. -/
  found : ∀ logId, (∃ package ∈ packages, package.logId = logId) →
    groups.get? logId = some (packages.filter (·.logId = logId))
  /-- No other log id is found. -/
  notFound : ∀ logId, groups.get? logId = none ↔ ∀ package ∈ packages, package.logId ≠ logId
  /-- No package is lost and none is repeated. -/
  packageCount : groups.packageCount = packages.length
  /-- There are as many groups as different log ids. -/
  size : groups.size = (packages.map (·.logId)).toFinset.card

theorem byFirstAppearance_ofList (packages : List Package) :
    ByFirstAppearance packages (ofList packages) where
  nodup := logIds_ofList packages ▸ nodup_eraseDups _
  mem_logIds logId := by rw [logIds_ofList, List.mem_eraseDups, List.mem_map]
  order := logIds_ofList packages ▸ pairwise_idxOf_eraseDups _
  members logId members hgroup := by
    obtain ⟨hlogId, rfl⟩ := mem_toList_ofList hgroup
    exact ⟨fun hnil => ofLogId_eq_nil_iff.mp hnil hlogId, rfl⟩
  found logId hlogId := by
    rw [get?_ofList, if_pos (List.mem_map.mpr hlogId)]
    rfl
  notFound _ := get?_ofList_eq_none_iff
  packageCount := by rw [packageCount_eq, (packages_ofList_perm packages).length_eq]
  size := by
    rw [← length_eraseDups, ← logIds_ofList, logIds, List.length_map]
    rfl

/-- Packages inserted one by one are grouped by first appearance. Inserting the packages of the
groups again, group by group, gives the same groups. When two neighbours of different log ids change
places, every log id still has the same packages in the same order. -/
theorem insert_groups_by_first_appearance (packages : List Package) :
    ByFirstAppearance packages (packages.foldl insert .empty) ∧
    (packages.foldl insert .empty).packages.foldl insert .empty = packages.foldl insert .empty ∧
    ∀ before first second after, packages = before ++ first :: second :: after →
      first.logId ≠ second.logId → ∀ logId,
      (packages.foldl insert .empty).get? logId
        = ((before ++ second :: first :: after).foldl insert .empty).get? logId := by
  simp only [← ofList_eq_foldl_insert]
  refine ⟨byFirstAppearance_ofList packages, ofList_packages_ofList packages, ?_⟩
  rintro before first second after rfl hne logId
  exact get?_ofList_swap before after hne logId

/-- A package that only its log id and its return code tell from others. -/
def bare (logId : UInt16) (returnCode : UInt32) : Package where
  logId
  sequenceId := 1
  commandClass := 0xA8
  command := 0x01
  severity := .recovered
  chipId := 0
  returnCode
  data := []

/-- Of three packages the first and the last have one log id, and the first two change places. -/
theorem insert_groups_by_first_appearance_three :
    (bare 9 1).logId ≠ (bare 2 2).logId ∧
    ByFirstAppearance [bare 9 1, bare 2 2, bare 9 3]
      ⟨[(9, [bare 9 1, bare 9 3]), (2, [bare 2 2])]⟩ ∧
    ([bare 2 2, bare 9 1, bare 9 3].foldl insert .empty).get? 9
      = some [bare 9 1, bare 9 3] := by
  have hmade : [bare 9 1, bare 2 2, bare 9 3].foldl insert .empty
      = ⟨[(9, [bare 9 1, bare 9 3]), (2, [bare 2 2])]⟩ := by decide
  have hne : (bare 9 1).logId ≠ (bare 2 2).logId := by decide
  obtain ⟨hgroups, -, hswap⟩ :=
    insert_groups_by_first_appearance [bare 9 1, bare 2 2, bare 9 3]
  have hnine := hswap [] (bare 9 1) (bare 2 2) [bare 9 3] rfl hne 9
  rw [hmade] at hgroups hnine
  exact ⟨hne, hgroups, hnine.symm⟩

end Groups

end FirstFailure
