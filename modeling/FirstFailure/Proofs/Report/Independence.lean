import FirstFailure.Proofs.Report.Entries
import Mathlib.Data.List.Nodup
/-!
# Groups do not interfere

The entry of a log id is decided by the packages of that log id: two responses that agree on them
make the same entry, whatever else they carry. Without raw attachments it is decided by even less,
namely by return code, data and severity of those packages that do not refer to platform data.
-/

namespace FirstFailure

variable {decoder : Decoder} {lookup : TargetLookup} {options : ReportOptions}

namespace Package

/-- What an entry learns from a package when raw packages are not attached. -/
def substance (package : Package) : UInt32 × Bytes × Severity :=
  (package.returnCode, package.data, package.severity)

/-- The substance of the packages of a log id, without those that refer to platform data. -/
def substanceOf (logId : UInt16) (packages : List Package) : List (UInt32 × Bytes × Severity) :=
  ((Groups.ofLogId logId packages).filter (·.returnCode ≠ platformDataCode)).map substance

theorem contribution?_of_platformData {package : Package}
    (h : package.returnCode = platformDataCode) :
    package.contribution? decoder lookup options = none :=
  if_pos h

/-- A contribution depends on return code and data alone. -/
theorem contribution?_congr {package other : Package}
    (hcode : package.returnCode = other.returnCode) (hdata : package.data = other.data) :
    package.contribution? decoder lookup options = other.contribution? decoder lookup options := by
  simp only [contribution?, hcode, hdata]

/-- What packages contribute is decided by their substance. -/
theorem contributed_eq_substance (packages : List Package) :
    contributed decoder lookup options packages
      = (packages.map substance).filterMap fun (returnCode, data, severity) =>
        (contribution? decoder lookup options { (default : Package) with returnCode, data }).map
          (severity, ·) := by
  rw [List.filterMap_map]
  refine List.filterMap_congr fun package _ => ?_
  exact congrArg (Option.map (package.severity, ·)) (contribution?_congr rfl rfl)

end Package

namespace Entry

/-! ## What a sum does not see -/

/-- Packages that refer to platform data change nothing, wherever they stand. -/
theorem gather_filter_platformData (severity : Severity) (sum : Contribution)
    (packages : List Package) :
    gather decoder lookup options severity sum
        (packages.filter (·.returnCode ≠ platformDataCode))
      = gather decoder lookup options severity sum packages := by
  apply gather_eq_of_contributed
  rw [Package.contributed, List.filterMap_filter]
  refine List.filterMap_congr fun package _ => ?_
  by_cases h : package.returnCode = platformDataCode
  · simp [h, Package.contribution?_of_platformData h]
  · simp [h]

/-- Packages of the same substance add up to the same. -/
theorem gather_congr {packages others : List Package}
    (h : packages.map Package.substance = others.map Package.substance) (severity : Severity)
    (sum : Contribution) :
    gather decoder lookup options severity sum packages
      = gather decoder lookup options severity sum others := by
  apply gather_eq_of_contributed
  rw [Package.contributed_eq_substance, Package.contributed_eq_substance, h]

/-- Without raw attachments, groups of the same substance make the same entry. -/
theorem ofGroup_congr (hattach : options.attachRaw = false) {logId : UInt16}
    {packages others : List Package}
    (h : (packages.filter (·.returnCode ≠ platformDataCode)).map Package.substance
      = (others.filter (·.returnCode ≠ platformDataCode)).map Package.substance) :
    ofGroup decoder lookup options logId packages
      = ofGroup decoder lookup options logId others := by
  have hsum : gather decoder lookup options .undefined .none packages
      = gather decoder lookup options .undefined .none others := by
    rw [← gather_filter_platformData, gather_congr h, gather_filter_platformData]
  simp only [ofGroup, hsum, hattach, Bool.false_eq_true, if_false]

end Entry

/-! ## One entry for a log id -/

/-- A log id that some package has is the log id of one entry, made of the packages that have it. -/
theorem Report.filter_logId {buffer : Bytes} {report : Report}
    (h : Report.ofResponse buffer decoder lookup options = .ok report) {logId : UInt16}
    (hmem : logId ∈ (packagesIn buffer).map (·.logId)) :
    report.entries.filter (·.logId = some logId)
      = [Entry.ofGroup decoder lookup options logId
          (Groups.ofLogId logId (packagesIn buffer))] := by
  have hone : ((packagesIn buffer).map (·.logId)).eraseDups.filter (· = logId) = [logId] := by
    rw [List.filter_eq, List.count_eq_one_of_mem (Groups.nodup_eraseDups _)
      (List.mem_eraseDups.mpr hmem)]
    rfl
  rw [Report.entries_of_response h, List.filter_map]
  simp only [Function.comp_def, Entry.ofGroup_logId, Option.some.injEq, hone, List.map_cons,
    List.map_nil]

/-- Groups do not interfere. In the reports of two responses that both have packages of a log id,
exactly one entry each has that log id. If the responses agree on the packages of the log id, the
entries are equal. Without raw attachments it is enough that they agree on return code, data and
severity of those that do not refer to platform data. -/
theorem entry_independent_of_other_groups {buffer other : Bytes} {report otherReport : Report}
    {logId : UInt16} (h : Report.ofResponse buffer decoder lookup options = .ok report)
    (hother : Report.ofResponse other decoder lookup options = .ok otherReport)
    (hmem : logId ∈ (packagesIn buffer).map (·.logId))
    (hmemOther : logId ∈ (packagesIn other).map (·.logId)) :
    ∃ entry otherEntry,
      report.entries.filter (·.logId = some logId) = [entry] ∧
      otherReport.entries.filter (·.logId = some logId) = [otherEntry] ∧
      (Groups.ofLogId logId (packagesIn buffer) = Groups.ofLogId logId (packagesIn other) →
        entry = otherEntry) ∧
      (options.attachRaw = false →
        Package.substanceOf logId (packagesIn buffer)
          = Package.substanceOf logId (packagesIn other) →
        entry = otherEntry) := by
  refine ⟨_, _, Report.filter_logId h hmem, Report.filter_logId hother hmemOther, ?_, ?_⟩
  · intro hsame
    rw [hsame]
  · intro hattach hsame
    exact Entry.ofGroup_congr hattach hsame

/-- A package of log id 7 with platform data, one of log id 8, and another one of log id 7. -/
def crowdedResponse : Bytes :=
  [1, 2, 3] ++ [0xC0, 0xDE, 0xA8, 1] ++ [0, 0xFE, 0, 0x0A]
    ++ [0xFB, 0xAD, 0, 4, 0, 1, 0xA8, 1, 0, 7, 0x40, 0, 2, 0, 0, 1]
    ++ [0xFB, 0xAD, 0, 4, 0, 2, 0xA8, 1, 0, 8, 0x40, 0, 0, 0, 0, 3]
    ++ [0xFB, 0xAD, 0, 5, 0, 3, 0xA8, 1, 0, 7, 0x20, 0, 0, 0, 0, 4, 9, 9, 9, 9]
    ++ [0, 0, 0, 16]

/-- One package of log id 7, with a sequence id, a command and a chip of its own. -/
def lonelyResponse : Bytes :=
  [0xC0, 0xDE, 0xA8, 1] ++ [0, 0, 0, 0]
    ++ [0xFB, 0xAD, 0, 5, 0, 9, 0xA1, 2, 0, 7, 0x20, 5, 0, 0, 0, 4, 9, 9, 9, 9]
    ++ [0, 0, 0, 8]

/-- The entry of log id 7 is the same in both responses. -/
theorem entry_independent_of_other_groups_sample :
    ∃ report otherReport entry,
      Report.ofResponse crowdedResponse .raw .none {} = .ok report ∧
      Report.ofResponse lonelyResponse .raw .none {} = .ok otherReport ∧
      7 ∈ (packagesIn crowdedResponse).map (·.logId) ∧
      7 ∈ (packagesIn lonelyResponse).map (·.logId) ∧
      Package.substanceOf 7 (packagesIn crowdedResponse)
        = Package.substanceOf 7 (packagesIn lonelyResponse) ∧
      report.entries.filter (·.logId = some 7) = [entry] ∧
      otherReport.entries.filter (·.logId = some 7) = [entry] := by
  have hok : (Report.ofResponse crowdedResponse .raw .none {}).toOption.isSome = true := by
    decide +kernel
  have hokOther : (Report.ofResponse lonelyResponse .raw .none {}).toOption.isSome = true := by
    decide +kernel
  have hmem : 7 ∈ (packagesIn crowdedResponse).map (·.logId) := by decide +kernel
  have hmemOther : 7 ∈ (packagesIn lonelyResponse).map (·.logId) := by decide +kernel
  have hsame : Package.substanceOf 7 (packagesIn crowdedResponse)
      = Package.substanceOf 7 (packagesIn lonelyResponse) := by decide +kernel
  obtain ⟨report, hreport⟩ := Option.isSome_iff_exists.mp hok
  obtain ⟨otherReport, hotherReport⟩ := Option.isSome_iff_exists.mp hokOther
  have h := Outcome.toOption_eq_some_iff.mp hreport
  have hother := Outcome.toOption_eq_some_iff.mp hotherReport
  obtain ⟨entry, otherEntry, hone, honeOther, -, hequal⟩ :=
    entry_independent_of_other_groups h hother hmem hmemOther
  rw [← hequal rfl hsame] at honeOther
  exact ⟨report, otherReport, entry, h, hother, hmem, hmemOther, hsame, hone, honeOther⟩

end FirstFailure
