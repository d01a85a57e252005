import FirstFailure.Proofs.Package.Chunks
import FirstFailure.Proofs.Report.Contributions
import FirstFailure.Proofs.Report.Independence
import Mathlib.Order.Bounds.Basic
/-!
# Severities of entries

The levels of severity are ordered as their wire values are. Merging two of them takes the greater
one under one policy and the lesser one under the other, so merging a row of them takes an extreme
of the row and of where it starts: no order of the row counts, nor how often a level occurs in it.
The severity of an entry is therefore decided by the levels of the packages that contribute. Where
these stand in their group does not matter, nor what the other packages carry.
-/

namespace FirstFailure

variable {decoder : Decoder} {lookup : TargetLookup} {options : ReportOptions}

/-! ## The order of the levels -/

namespace Severity

theorem raw_injective : Function.Injective raw :=
  Function.LeftInverse.injective ofRaw_raw

/-- Levels compare as their wire values do. -/
instance : LinearOrder Severity where
  le severity other := severity.raw ≤ other.raw
  lt severity other := severity < other
  le_refl _ := UInt8.le_refl _
  le_trans _ _ _ := UInt8.le_trans
  lt_iff_le_not_ge severity other :=
    (lt_iff_raw_lt severity other).trans (Std.LawfulOrderLT.lt_iff severity.raw other.raw)
  le_antisymm _ _ h h' := raw_injective (UInt8.le_antisymm h h')
  le_total _ _ := UInt8.le_total _ _
  toDecidableLE severity other := inferInstanceAs (Decidable (severity.raw ≤ other.raw))
  toDecidableEq := inferInstance
  toDecidableLT := inferInstance

theorem undefined_le (severity : Severity) : undefined ≤ severity :=
  show (0 : UInt8) ≤ severity.raw from UInt8.zero_le

/-- Beside other levels the lowest one does not count for the greatest. -/
theorem isGreatest_of_undefined {severities : Set Severity} {greatest : Severity}
    (h : IsGreatest {severity | severity = undefined ∨ severity ∈ severities} greatest)
    (hsome : severities.Nonempty) : IsGreatest severities greatest := by
  refine ⟨?_, fun _ hmem => h.2 (.inr hmem)⟩
  rcases h.1 with hlowest | hmem
  · -- The lowest level is the greatest only where all the others are the lowest one too.
    obtain ⟨severity, hmem⟩ := hsome
    have hle : severity ≤ greatest := h.2 (.inr hmem)
    rw [hlowest] at hle ⊢
    rwa [← le_antisymm hle (undefined_le severity)]
  · exact hmem

end Severity

/-! ## Merging a row -/

namespace SeverityMerge

theorem merge_worst (running candidate : Severity) :
    worst.merge running candidate = max running candidate :=
  (max_def_lt running candidate).symm

theorem merge_legacy (running candidate : Severity) :
    legacy.merge running candidate = min running candidate := by
  rw [min_comm]
  exact (min_def_lt candidate running).symm

/-- What a policy picks out of levels: the greatest or the least of them. -/
def Picks : SeverityMerge → Set Severity → Severity → Prop
  | worst => IsGreatest
  | legacy => IsLeast

theorem Picks.unique {policy : SeverityMerge} {severities : Set Severity}
    {severity other : Severity} (h : policy.Picks severities severity)
    (hother : policy.Picks severities other) : severity = other := by
  cases policy with
  | worst => exact IsGreatest.unique h hother
  | legacy => exact IsLeast.unique h hother

/-- One step of merging: the next level joins those that were picked from. -/
theorem Picks.merge {policy : SeverityMerge} {severities : Set Severity} {running : Severity}
    (h : policy.Picks severities running) (candidate : Severity) :
    policy.Picks (insert candidate severities) (policy.merge running candidate) := by
  cases policy with
  | worst =>
    rw [merge_worst, max_comm]
    exact IsGreatest.insert candidate h
  | legacy =>
    rw [merge_legacy, min_comm]
    exact IsLeast.insert candidate h

/-- A whole row: all its levels join those that were picked from. -/
theorem Picks.foldl {policy : SeverityMerge} {before : Set Severity} {start : Severity}
    (h : policy.Picks before start) (severities : List Severity) :
    policy.Picks {severity | severity ∈ before ∨ severity ∈ severities}
      (severities.foldl policy.merge start) := by
  -- Each step adds its level to those picked from, so these vary with the start.
  induction severities generalizing before start with
  | nil => simpa using h
  | cons candidate rest ih =>
    have hjoined : {severity | severity ∈ before ∨ severity ∈ candidate :: rest}
        = {severity | severity ∈ insert candidate before ∨ severity ∈ rest} := by
      ext severity
      simp only [Set.mem_ofPred_eq, Set.mem_insert_iff, List.mem_cons, or_assoc, or_left_comm]
    rw [hjoined]
    exact ih (h.merge candidate)

theorem picks_foldl (policy : SeverityMerge) (start : Severity) (severities : List Severity) :
    policy.Picks {severity | severity ∈ start :: severities}
      (severities.foldl policy.merge start) := by
  have hstart : policy.Picks {start} start := by
    cases policy with
    | worst => exact isGreatest_singleton
    | legacy => exact isLeast_singleton
  simpa only [List.mem_cons, Set.mem_singleton_iff] using hstart.foldl severities

/-- Rows with the same levels in them merge to the same level. -/
theorem foldl_merge_congr (policy : SeverityMerge) (start : Severity)
    {severities others : List Severity}
    (h : ∀ severity, severity ∈ severities ↔ severity ∈ others) :
    severities.foldl policy.merge start = others.foldl policy.merge start := by
  have hpicks := picks_foldl policy start severities
  simp only [List.mem_cons, h] at hpicks
  exact hpicks.unique (by simpa only [List.mem_cons] using picks_foldl policy start others)

/-- Under the legacy policy nothing replaces the lowest level. -/
theorem foldl_legacy_undefined (severities : List Severity) :
    severities.foldl legacy.merge .undefined = .undefined :=
  le_antisymm ((picks_foldl legacy .undefined severities).2 List.mem_cons_self)
    (Severity.undefined_le _)

end SeverityMerge

/-! ## What counts of a group -/

namespace Package

/-- The levels of the packages of a row that contribute. -/
def contributedSeverities (decoder : Decoder) (lookup : TargetLookup) (options : ReportOptions)
    (packages : List Package) : Set Severity :=
  {severity | ∃ package ∈ packages,
    (∃ contribution, package.Contributes decoder lookup options contribution) ∧
      package.severity = severity}

theorem contributedSeverities_eq (packages : List Package) :
    contributedSeverities decoder lookup options packages
      = {severity | severity ∈ (contributed decoder lookup options packages).map (·.1)} := by
  ext severity
  simp only [contributedSeverities, contributed, Set.mem_ofPred_eq, List.mem_map,
    List.mem_filterMap, Option.map_eq_some_iff, contribution?_eq_some_iff]
  constructor
  · rintro ⟨package, hmem, ⟨contribution, hcontributes⟩, rfl⟩
    exact ⟨_, ⟨package, hmem, contribution, hcontributes, rfl⟩, rfl⟩
  · rintro ⟨_, ⟨package, hmem, contribution, hcontributes, rfl⟩, rfl⟩
    exact ⟨package, hmem, ⟨contribution, hcontributes⟩, rfl⟩

/-- The same package, with another level at most, and only if it does not contribute. -/
structure Regraded (decoder : Decoder) (lookup : TargetLookup) (options : ReportOptions)
    (package other : Package) : Prop where
  same : other = { package with severity := other.severity }
  severity : ∀ contribution, package.Contributes decoder lookup options contribution →
    other.severity = package.severity

/-- The same packages in any order, those that do not contribute with any levels. -/
def Rearranged (decoder : Decoder) (lookup : TargetLookup) (options : ReportOptions)
    (packages others : List Package) : Prop :=
  ∃ middle, packages.Perm middle ∧ List.Forall₂ (Regraded decoder lookup options) middle others

theorem Regraded.contribution?_eq {package other : Package}
    (h : Regraded decoder lookup options package other) :
    other.contribution? decoder lookup options = package.contribution? decoder lookup options := by
  have hcode : other.returnCode = package.returnCode := congrArg (·.returnCode) h.same
  have hdata : other.data = package.data := congrArg (·.data) h.same
  exact contribution?_congr hcode hdata

theorem contributed_of_regraded {packages others : List Package}
    (h : List.Forall₂ (Regraded decoder lookup options) packages others) :
    contributed decoder lookup options packages = contributed decoder lookup options others := by
  induction h with
  | nil => rfl
  | @cons package other packages others hfirst _ ih =>
    have hcontribution := hfirst.contribution?_eq
    rw [contributed, contributed, List.filterMap_cons, List.filterMap_cons, hcontribution,
      ← contributed, ← contributed, ih]
    cases hpackage : package.contribution? decoder lookup options with
    | none => rfl
    | some contribution =>
      rw [hfirst.severity contribution (contribution?_eq_some_iff.mp hpackage)]

theorem Rearranged.perm_contributed {packages others : List Package}
    (h : Rearranged decoder lookup options packages others) :
    (contributed decoder lookup options packages).Perm
      (contributed decoder lookup options others) := by
  obtain ⟨middle, hperm, hregraded⟩ := h
  rw [← contributed_of_regraded hregraded]
  exact hperm.filterMap _

end Package

/-! ## The severity of an entry -/

namespace Entry

/-- The severity of an entry as the policy wants it for its group. -/
structure Rated (decoder : Decoder) (lookup : TargetLookup) (options : ReportOptions)
    (packages : List Package) (entry : Entry) : Prop where
  /-- The most severe package among those that contribute decides. -/
  worst : options.severityMerge = .worst →
    (∃ package ∈ packages, ∃ contribution,
      package.Contributes decoder lookup options contribution) →
    IsGreatest (Package.contributedSeverities decoder lookup options packages) entry.severity
  /-- Where no package contributes there is none to decide. -/
  empty : options.severityMerge = .worst →
    (∀ package ∈ packages, ∀ contribution,
      ¬package.Contributes decoder lookup options contribution) →
    entry.severity = .undefined
  legacy : options.severityMerge = .legacy → entry.severity = .undefined

variable (logId : UInt16) (packages : List Package)

theorem ofGroup_severity :
    (ofGroup decoder lookup options logId packages).severity
      = ((Package.contributed decoder lookup options packages).map (·.1)).foldl
        options.severityMerge.merge .undefined := by
  simp only [ofGroup, gather_eq, List.foldl_map]

theorem ofGroup_rated :
    Rated decoder lookup options packages (ofGroup decoder lookup options logId packages) where
  worst := by
    rintro hworst ⟨package, hmem, hcontributes⟩
    have hpicks := SeverityMerge.picks_foldl .worst .undefined
      ((Package.contributed decoder lookup options packages).map (·.1))
    simp only [List.mem_cons] at hpicks
    rw [ofGroup_severity, hworst]
    refine Severity.isGreatest_of_undefined ?_ ⟨_, package, hmem, hcontributes, rfl⟩
    rw [Package.contributedSeverities_eq]
    exact hpicks
  empty _ h := by
    rw [ofGroup_severity, Package.contributed_eq_nil h]
    rfl
  legacy hlegacy := by
    rw [ofGroup_severity, hlegacy]
    exact SeverityMerge.foldl_legacy_undefined _

theorem ofGroup_severity_of_rearranged (otherId : UInt16) {packages others : List Package}
    (h : Package.Rearranged decoder lookup options packages others) :
    (ofGroup decoder lookup options logId packages).severity
      = (ofGroup decoder lookup options otherId others).severity := by
  rw [ofGroup_severity, ofGroup_severity]
  exact SeverityMerge.foldl_merge_congr _ _ fun _ => (h.perm_contributed.map _).mem_iff

end Entry

/-! ## The entries of all groups -/

/-- The severity of an entry is an extreme of the levels that count. Merging a row of levels picks
the greatest of row and start under one policy and the least under the other, so rows with the same
levels in them, in any order and any number, merge to the same. Every entry has the greatest level
of the packages of its group that contribute, `undefined` if there are none, and always `undefined`
under the legacy policy. The order of the packages in their groups does not change it, nor do the
levels of those that do not contribute. -/
theorem entries_take_extreme_severity :
    (∀ (start : Severity) (severities : List Severity),
      IsGreatest {severity | severity ∈ start :: severities}
        (severities.foldl SeverityMerge.worst.merge start) ∧
      IsLeast {severity | severity ∈ start :: severities}
        (severities.foldl SeverityMerge.legacy.merge start)) ∧
    (∀ (policy : SeverityMerge) (start : Severity) (severities others : List Severity),
      (∀ severity, severity ∈ severities ↔ severity ∈ others) →
      severities.foldl policy.merge start = others.foldl policy.merge start) ∧
    ∀ (groups : Groups) decoder lookup options,
      List.Forall₂ (fun group entry => Entry.Rated decoder lookup options group.2 entry)
        groups.toList (groups.toEntries decoder lookup options) ∧
      ∀ others : Groups,
        List.Forall₂
          (fun group other => Package.Rearranged decoder lookup options group.2 other.2)
          groups.toList others.toList →
        (groups.toEntries decoder lookup options).map (·.severity)
          = (others.toEntries decoder lookup options).map (·.severity) := by
  refine ⟨fun start severities => ⟨?_, ?_⟩, ?_, fun groups decoder lookup options => ⟨?_, ?_⟩⟩
  · exact SeverityMerge.picks_foldl .worst start severities
  · exact SeverityMerge.picks_foldl .legacy start severities
  · exact fun policy start _ _ h => SeverityMerge.foldl_merge_congr policy start h
  · rw [Groups.toEntries, List.forall₂_map_right_iff, List.forall₂_same]
    exact fun group _ => Entry.ofGroup_rated group.1 group.2
  · intro others h
    rw [Groups.toEntries, Groups.toEntries, List.map_map, List.map_map,
      ← List.forall₂_eq_eq_eq, List.forall₂_map_left_iff, List.forall₂_map_right_iff]
    exact h.imp fun group other hgroup =>
      Entry.ofGroup_severity_of_rearranged group.1 other.1 hgroup

/-- A decoder that does not know return code 5 and finds a spare clock behind return code 6. -/
def choosy : Decoder := fun returnCode data chipPosition chipType =>
  if returnCode = 5 then .error (.unknownReturnCode returnCode)
  else (Decoder.raw returnCode data chipPosition chipType).map fun failure =>
    if returnCode = 6 then { failure with kind := .spareClock } else failure

/-- A package of log id 7 with a return code and a severity. -/
def graded (returnCode : UInt32) (severity : Severity) : Package :=
  { (default : Package) with logId := 7, returnCode, severity }

/-- Two packages that contribute, among worse ones that do not: platform data, data that is not
decoded, and data that is not converted. -/
def mixedGroup : List Package :=
  [graded 0x02000001 .unrecoverable, graded 3 .recovered, graded 5 .unrecoverable,
    graded 4 .predictive, graded 6 .unrecoverable]

/-- The same packages from the last to the first, with other severities where they do not count. -/
def turnedGroup : List Package :=
  [graded 6 .recovered, graded 4 .predictive, graded 5 .undefined, graded 3 .recovered,
    graded 0x02000001 .predictive]

theorem not_contributes_graded {returnCode : UInt32}
    (h : returnCode = 0x02000001 ∨ returnCode = 5 ∨ returnCode = 6) (severity : Severity) :
    ∀ contribution, ¬(graded returnCode severity).Contributes choosy .none {} contribution := by
  refine Package.contribution?_eq_none_iff.mp ?_
  rcases h with rfl | rfl | rfl
  · rfl
  · rfl
  · rfl

theorem rearranged_mixedGroup : Package.Rearranged choosy .none {} mixedGroup turnedGroup := by
  have hskipped {returnCode : UInt32} (severity other : Severity)
      (h : returnCode = 0x02000001 ∨ returnCode = 5 ∨ returnCode = 6) :
      Package.Regraded choosy .none {} (graded returnCode severity) (graded returnCode other) :=
    ⟨rfl, fun contribution hcontributes =>
      absurd hcontributes (not_contributes_graded h severity contribution)⟩
  have hkept (package : Package) : Package.Regraded choosy .none {} package package :=
    ⟨rfl, fun _ _ => rfl⟩
  exact ⟨mixedGroup.reverse, (List.reverse_perm _).symm,
    .cons (hskipped _ _ (by decide)) (.cons (hkept _) (.cons (hskipped _ _ (by decide))
      (.cons (hkept _) (.cons (hskipped _ _ (by decide)) .nil))))⟩

/-- Among worse packages that do not contribute the predictive one decides, in both orders. Without
one that contributes, and under the legacy policy, the severity is `undefined`. -/
theorem entries_take_extreme_severity_mixed :
    (∃ package ∈ mixedGroup, ∃ contribution, package.Contributes choosy .none {} contribution) ∧
    Package.Rearranged choosy .none {} mixedGroup turnedGroup ∧
    (∃ entry, Groups.toEntries ⟨[(7, mixedGroup)]⟩ choosy .none {} = [entry] ∧
      IsGreatest (Package.contributedSeverities choosy .none {} mixedGroup) entry.severity ∧
      entry.severity = .predictive) ∧
    (Groups.toEntries ⟨[(7, turnedGroup)]⟩ choosy .none {}).map (·.severity) = [.predictive] ∧
    (∃ entry, Groups.toEntries ⟨[(7, [graded 5 .unrecoverable])]⟩ choosy .none {} = [entry] ∧
      entry.severity = .undefined) ∧
    (∃ entry, Groups.toEntries ⟨[(7, mixedGroup)]⟩ choosy .none
        { severityMerge := .legacy } = [entry] ∧ entry.severity = .undefined) ∧
    [.recovered, .predictive, .recovered].foldl SeverityMerge.worst.merge .undefined
      = [.predictive, .recovered].foldl SeverityMerge.worst.merge .undefined := by
  obtain ⟨-, hrows, hgroups⟩ := entries_take_extreme_severity
  obtain ⟨hmixed, hsame⟩ := hgroups ⟨[(7, mixedGroup)]⟩ choosy .none {}
  obtain ⟨hlonely, -⟩ := hgroups ⟨[(7, [graded 5 .unrecoverable])]⟩ choosy .none {}
  obtain ⟨hlegacy, -⟩ := hgroups ⟨[(7, mixedGroup)]⟩ choosy .none { severityMerge := .legacy }
  have hcontributes : ∃ package ∈ mixedGroup, ∃ contribution,
      package.Contributes choosy .none {} contribution :=
    ⟨graded 4 .predictive, by decide, _, by decide, _, rfl, rfl⟩
  have hnone : ∀ package ∈ [graded 5 .unrecoverable], ∀ contribution,
      ¬package.Contributes choosy .none {} contribution :=
    List.forall_mem_singleton.mpr (not_contributes_graded (.inr (.inl rfl)) _)
  have hturned := hsame ⟨[(7, turnedGroup)]⟩ (.cons rearranged_mixedGroup .nil)
  refine ⟨hcontributes, rearranged_mixedGroup,
    ⟨_, rfl, (List.forall₂_cons.mp hmixed).1.worst rfl hcontributes, by decide +kernel⟩, ?_,
    ⟨_, rfl, (List.forall₂_cons.mp hlonely).1.empty rfl hnone⟩,
    ⟨_, rfl, (List.forall₂_cons.mp hlegacy).1.legacy rfl⟩,
    hrows .worst .undefined _ _ fun severity => ?_⟩
  · rw [← hturned]
    decide +kernel
  · cases severity <;> decide

end FirstFailure
