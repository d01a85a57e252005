import FirstFailure.Proofs.Response.Contents
import FirstFailure.Report.Basic
/-!
# The entries of a report

An entry has what the packages of its group add, in their order, and the position pair behind it. A
report has one entry for each log id of the packages in its response, in the order in which the log
ids first appear, and the entry is made from the packages of that log id alone.
-/

namespace FirstFailure

variable {buffer : Bytes} {decoder : Decoder} {lookup : TargetLookup} {options : ReportOptions}
  {report : Report}

/-! ## What packages add up to -/

namespace Contribution

@[simp] theorem append_none (first : Contribution) : first.append none = first := by
  simp [append, none]

@[simp] theorem none_append (second : Contribution) : none.append second = second := by
  simp [append, none]

theorem append_assoc (first second third : Contribution) :
    (first.append second).append third = first.append (second.append third) := by
  simp [append]

theorem userData_concat (contributions : List Contribution) :
    (concat contributions).userData = contributions.flatMap (·.userData) := by
  induction contributions with
  | nil => rfl
  | cons first rest ih => simp [concat, append, ih]

theorem callouts_concat (contributions : List Contribution) :
    (concat contributions).callouts = contributions.flatMap (·.callouts) := by
  induction contributions with
  | nil => rfl
  | cons first rest ih => simp [concat, append, ih]

end Contribution

namespace Package

/-- A package contributes when it does not refer to platform data, its data can be decoded, and what
the decoder makes of it can be converted. -/
structure Contributes (decoder : Decoder) (lookup : TargetLookup) (options : ReportOptions)
    (package : Package) (contribution : Contribution) : Prop where
  returnCode : package.returnCode ≠ 0x02000001
  converted : ∃ failure,
    decoder package.returnCode package.data options.chipPosition options.chipType = .ok failure ∧
      failure.convert lookup = .ok contribution

theorem contribution?_eq_some_iff {package : Package} {contribution : Contribution} :
    package.contribution? decoder lookup options = some contribution ↔
      package.Contributes decoder lookup options contribution := by
  unfold contribution?
  by_cases hplatform : package.returnCode = platformDataCode
  · rw [if_pos hplatform]
    exact ⟨nofun, fun h => absurd hplatform h.returnCode⟩
  · rw [if_neg hplatform]
    constructor
    · intro h
      split at h
      next => cases h
      next failure hdecode =>
        split at h
        next => cases h
        next hconvert =>
          cases h
          exact ⟨hplatform, failure, hdecode, hconvert⟩
    · rintro ⟨-, failure, hdecode, hconvert⟩
      simp only [hdecode, hconvert]

theorem contribution?_eq_none_iff {package : Package} :
    package.contribution? decoder lookup options = none ↔
      ∀ contribution, ¬package.Contributes decoder lookup options contribution := by
  rw [Option.eq_none_iff_forall_ne_some]
  exact forall_congr' fun _ => not_congr contribution?_eq_some_iff

/-- What packages add to their entry, in order. -/
def contributions (decoder : Decoder) (lookup : TargetLookup) (options : ReportOptions)
    (packages : List Package) : List Contribution :=
  packages.filterMap (·.contribution? decoder lookup options)

/-- What packages add to their entry, each with the severity of its package. -/
def contributed (decoder : Decoder) (lookup : TargetLookup) (options : ReportOptions)
    (packages : List Package) : List (Severity × Contribution) :=
  packages.filterMap fun package =>
    (package.contribution? decoder lookup options).map (package.severity, ·)

theorem map_snd_contributed (packages : List Package) :
    (contributed decoder lookup options packages).map (·.2)
      = contributions decoder lookup options packages := by
  rw [contributed, contributions, List.map_filterMap]
  simp only [Option.map_map, Function.comp_def, Option.map_id']

end Package

namespace Entry

variable (logId : UInt16) (packages : List Package)

/-- What packages add up to is decided by what those among them add that contribute. -/
theorem gather_eq (severity : Severity) (sum : Contribution) :
    gather decoder lookup options severity sum packages
      = ((Package.contributed decoder lookup options packages).foldl
          (fun running added => options.severityMerge.merge running added.1) severity,
        sum.append (.concat (Package.contributions decoder lookup options packages))) := by
  induction packages generalizing severity sum with
  | nil => exact Prod.ext rfl (Contribution.append_none sum).symm
  | cons package rest ih =>
    rw [gather, Package.contributed, Package.contributions]
    cases hpackage : package.contribution? decoder lookup options with
    | none =>
      rw [List.filterMap_cons_none hpackage, List.filterMap_cons_none (by rw [hpackage]; rfl)]
      exact ih severity sum
    | some contribution =>
      rw [List.filterMap_cons_some hpackage,
        List.filterMap_cons_some (by rw [hpackage]; rfl), Contribution.concat,
        ← Contribution.append_assoc]
      exact ih _ _

/-- Packages that contribute the same with the same severities add up to the same. -/
theorem gather_eq_of_contributed {other : TargetLookup} {packages others : List Package}
    (h : Package.contributed decoder lookup options packages
      = Package.contributed decoder other options others) (severity : Severity)
    (sum : Contribution) :
    gather decoder lookup options severity sum packages
      = gather decoder other options severity sum others := by
  rw [gather_eq, gather_eq, ← Package.map_snd_contributed, ← Package.map_snd_contributed, h]

theorem ofGroup_userData :
    (ofGroup decoder lookup options logId packages).userData
      = (Package.contributions decoder lookup options packages).flatMap (·.userData)
        ++ [(positionKey, positionValue options.chipPosition)] := by
  simp only [ofGroup, gather_eq, Contribution.none_append, Contribution.userData_concat]

theorem ofGroup_callouts :
    (ofGroup decoder lookup options logId packages).callouts
      = (Package.contributions decoder lookup options packages).flatMap (·.callouts) := by
  simp only [ofGroup, gather_eq, Contribution.none_append, Contribution.callouts_concat]

@[simp] theorem ofGroup_message :
    (ofGroup decoder lookup options logId packages).message = options.message := rfl

@[simp] theorem ofGroup_logId :
    (ofGroup decoder lookup options logId packages).logId = some logId := rfl

theorem ofGroup_attachment (h : options.attachRaw = true) :
    (ofGroup decoder lookup options logId packages).attachment
      = some (Package.rawBytes packages) :=
  if_pos h

end Entry

theorem Groups.toEntries_ofList (packages : List Package) :
    (Groups.ofList packages).toEntries decoder lookup options
      = (packages.map (·.logId)).eraseDups.map fun logId =>
        Entry.ofGroup decoder lookup options logId (Groups.ofLogId logId packages) := by
  rw [Groups.toEntries, Groups.toList_ofList, Groups.groupsOver, List.map_map]
  rfl

namespace Report

/-- What a response that makes a report consists of, and what its report says. -/
theorem of_response (h : ofResponse buffer decoder lookup options = .ok report) :
    ∃ contents, Contents.read buffer = .ok contents ∧
      contents.groups = Groups.ofList (packagesIn buffer) ∧
      report = {
        status := contents.frame.status
        value := contents.frame.value
        entries := contents.groups.toEntries decoder lookup options } := by
  obtain ⟨contents, hread, h⟩ := Outcome.bind_eq_ok_iff.mp h
  have hcontents := Outcome.mapError_eq_ok_iff.mp hread
  split at h
  next => cases h
  next =>
    cases h
    exact ⟨contents, hcontents, (Contents.of_read hcontents).2.1, rfl⟩

theorem entries_of_response (h : ofResponse buffer decoder lookup options = .ok report) :
    report.entries = ((packagesIn buffer).map (·.logId)).eraseDups.map fun logId =>
      Entry.ofGroup decoder lookup options logId (Groups.ofLogId logId (packagesIn buffer)) := by
  obtain ⟨contents, -, hgroups, rfl⟩ := of_response h
  rw [← Groups.toEntries_ofList, ← hgroups]

end Report

end FirstFailure
