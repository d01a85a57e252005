import FirstFailure.Diagnostic.Validation
import FirstFailure.Proofs.Report.Entries
import FirstFailure.Proofs.Target.Lookup
/-!
# Reports are valid

A report keeps the rules of entries as far as it decides them itself. Every key that a package adds
starts with `HWP_`, so none is empty and none is taken for the position key, which the entry adds
once and last. Every target called out was found by its path, so no path is empty. What is left is
what the report is told: an empty message, and procedures without a name.
-/

namespace FirstFailure

variable {buffer : Bytes} {decoder : Decoder} {lookup : TargetLookup} {options : ReportOptions}
  {report : Report}

/-! ## Contributions -/

/-- A key that a package may add to the user data. -/
def IsPackageKey (key : String) : Prop := ∃ rest, key = "HWP_" ++ rest

theorem IsPackageKey.ne_empty {key : String} (h : IsPackageKey key) : key ≠ "" := by
  obtain ⟨rest, rfl⟩ := h
  simp

theorem IsPackageKey.ne_positionKey {key : String} (h : IsPackageKey key) :
    key ≠ positionKey := by
  obtain ⟨rest, rfl⟩ := h
  intro heq
  have hchars := congrArg String.toList heq
  simp [positionKey] at hchars

/-- A key stays one when more is written behind it. -/
theorem IsPackageKey.append {key : String} (h : IsPackageKey key) (more : String) :
    IsPackageKey (key ++ more) := by
  obtain ⟨rest, rfl⟩ := h
  exact ⟨rest ++ more, String.append_assoc⟩

theorem isPackageKey_blockKey {list : String} (h : IsPackageKey list) (number : Nat) :
    IsPackageKey (blockKey list number) :=
  (h.append _).append _

/-- A contribution that keeps the rules of entries: its keys are those of packages, and its target
callouts have paths. -/
structure Contribution.Sound (contribution : Contribution) : Prop where
  keys : ∀ pair ∈ contribution.userData, IsPackageKey pair.1
  paths : ∀ target, Callout.target target ∈ contribution.callouts → target.entityPath ≠ []

namespace Contribution

theorem sound_none : Sound none := ⟨by simp [none], by simp [none]⟩

theorem Sound.append {first second : Contribution} (h : first.Sound) (h' : second.Sound) :
    (first.append second).Sound where
  keys := by
    intro pair hpair
    rcases List.mem_append.mp hpair with hpair | hpair
    · exact h.keys pair hpair
    · exact h'.keys pair hpair
  paths := by
    intro target htarget
    rcases List.mem_append.mp htarget with htarget | htarget
    · exact h.paths target htarget
    · exact h'.paths target htarget

theorem sound_concat {contributions : List Contribution} (h : ∀ c ∈ contributions, c.Sound) :
    (concat contributions).Sound := by
  induction contributions with
  | nil => exact sound_none
  | cons first rest ih =>
    exact (h first (by simp)).append (ih fun c hc => h c (by simp [hc]))

end Contribution

theorem sound_of_mem_blocks {α : Type} {contribution : Nat → α → Contribution}
    (h : ∀ number request, (contribution number request).Sound) (number : Nat)
    (requests : List α) : ∀ c ∈ blocks contribution number requests, c.Sound := by
  induction requests generalizing number with
  | nil => simp [blocks]
  | cons request rest ih =>
    intro c hc
    rcases List.mem_cons.mp hc with rfl | hc
    · exact h number request
    · exact ih (number + 1) c hc

theorem isPackageKey_of_mem_locationPairs {key : String} (h : IsPackageKey key) {target : Nat}
    {pair : String × String} (hpair : pair ∈ locationPairs lookup key target) :
    IsPackageKey pair.1 := by
  unfold locationPairs at hpair
  rcases List.mem_append.mp hpair with hpair | hpair
  · split at hpair
    next => cases List.mem_singleton.mp hpair; exact h.append _
    next => cases hpair
  · split at hpair
    next => cases List.mem_singleton.mp hpair; exact h.append _
    next => cases hpair

theorem PartRequest.contribution_sound (number : Nat) (request : PartRequest) :
    (request.contribution lookup number).Sound := by
  have hkey : IsPackageKey (blockKey partList number) :=
    isPackageKey_blockKey ⟨"HW_CO_", rfl⟩ number
  have hlocation : ∀ target, ∀ pair ∈ locationPairs lookup (blockKey partList number) target,
      IsPackageKey pair.1 := fun target pair hpair => isPackageKey_of_mem_locationPairs hkey hpair
  unfold PartRequest.contribution
  simp only
  split
  next => exact ⟨by simp [hkey.append], by simp⟩
  next target hfound =>
    constructor
    case keys =>
      intro pair hpair
      simp only [List.mem_append, List.mem_cons, List.not_mem_nil, or_false] at hpair
      rcases hpair with ((rfl | rfl) | hpair) | rfl | rfl
      · exact hkey.append _
      · exact hkey.append _
      · exact hlocation target pair hpair
      · exact hkey.append _
      · exact hkey.append _
    case paths =>
      -- A part is called out by its place, so no target is.
      intro called hcalled
      simp only at hcalled
      split at hcalled <;> simp at hcalled

/-- A target is called out by the path it was found by, and nothing is found by an empty one. -/
theorem TargetRequest.contribution_sound
    (hlookup : lookup.findByPath lookup.root [] = none) (number : Nat) (request : TargetRequest) :
    (request.contribution lookup number).Sound := by
  have hkey : IsPackageKey (blockKey targetList number) :=
    isPackageKey_blockKey ⟨"CDG_TGT_", rfl⟩ number
  have hlocation : ∀ target, ∀ pair ∈ locationPairs lookup (blockKey targetList number) target,
      IsPackageKey pair.1 := fun target pair hpair => isPackageKey_of_mem_locationPairs hkey hpair
  unfold TargetRequest.contribution
  simp only
  split
  next => exact Contribution.sound_none
  next target hfound =>
    constructor
    case keys =>
      intro pair hpair
      simp only [List.mem_append, List.mem_cons, List.not_mem_nil, or_false] at hpair
      rcases hpair with hpair | rfl | rfl | rfl | rfl | rfl
      · exact hlocation target pair hpair
      all_goals exact hkey.append _
    case paths =>
      intro called hcalled hnil
      simp only [List.mem_singleton, Callout.target.injEq] at hcalled
      subst hcalled
      have hempty : request.targetPath = [] := hnil
      rw [hempty, hlookup] at hfound
      cases hfound

theorem ProcedureRequest.contribution_sound (number : Nat) (request : ProcedureRequest) :
    (request.contribution number).Sound := by
  have hkey : IsPackageKey (blockKey procedureList number) :=
    isPackageKey_blockKey ⟨"PROC_CO_", rfl⟩ number
  exact ⟨by simp [contribution, hkey.append], by simp [contribution]⟩

theorem Failure.heading_sound (failure : Failure) :
    (Contribution.mk failure.heading []).Sound where
  keys := by
    intro pair hpair
    simp only [heading, List.mem_append, List.mem_cons, List.not_mem_nil, or_false,
      List.mem_map] at hpair
    rcases hpair with (rfl | rfl) | ⟨raw, -, rfl⟩
    · exact ⟨"RC", rfl⟩
    · exact ⟨"RC_DESC", rfl⟩
    · exact IsPackageKey.append ⟨"FFDC_", rfl⟩ raw.1
  paths := by simp

theorem Failure.convert_sound (hlookup : lookup.findByPath lookup.root [] = none)
    {failure : Failure} {contribution : Contribution}
    (h : failure.convert lookup = .ok contribution) : contribution.Sound := by
  unfold convert at h
  split at h
  next =>
    rw [Except.ok.injEq] at h
    subst h
    apply Contribution.sound_concat
    intro c hc
    simp only [List.cons_append, List.mem_cons, List.mem_append] at hc
    rcases hc with rfl | (hc | hc) | hc
    · exact failure.heading_sound
    · exact sound_of_mem_blocks PartRequest.contribution_sound _ _ c hc
    · exact sound_of_mem_blocks (TargetRequest.contribution_sound hlookup) _ _ c hc
    · exact sound_of_mem_blocks ProcedureRequest.contribution_sound _ _ c hc
  next => cases h

/-! ## Entries -/

/-- What packages add up to keeps the rules, since every contribution does. -/
theorem Entry.gather_sound (hlookup : lookup.findByPath lookup.root [] = none)
    (packages : List Package) (severity : Severity) {sum : Contribution} (h : sum.Sound) :
    (gather decoder lookup options severity sum packages).2.Sound := by
  rw [gather_eq]
  refine h.append (Contribution.sound_concat fun contribution hmem => ?_)
  obtain ⟨package, -, hpackage⟩ := List.mem_filterMap.mp hmem
  obtain ⟨failure, -, hconvert⟩ := (Package.contribution?_eq_some_iff.mp hpackage).converted
  exact Failure.convert_sound hlookup hconvert

/-- Whether a callout is a procedure without a name. -/
def Callout.isNameless : Callout → Bool
  | .procedure callout => callout.procedure = ""
  | _ => false

namespace Entry

theorem positionFaults_of_last {userData : UserData}
    (h : ∀ pair ∈ userData, pair.1 ≠ positionKey) (index : Nat) (value : String) :
    positionFaults index (userData ++ [(positionKey, value)]) = [] := by
  have hany : userData.any (fun pair => pair.1 = positionKey) = false := by
    rw [List.any_eq_false]
    intro pair hpair
    simpa using h pair hpair
  simp [positionFaults, hany]

theorem keyFaults_of_ne_empty {userData : UserData} (h : ∀ pair ∈ userData, pair.1 ≠ "")
    (index position : Nat) : keyFaults index position userData = [] := by
  induction userData generalizing position with
  | nil => rfl
  | cons pair rest ih =>
    have hpair := h pair (by simp)
    have hrest := ih fun p hp => h p (by simp [hp])
    simp [keyFaults, hpair, hrest]

theorem calloutFaults_of_paths {callouts : List Callout}
    (h : ∀ target, Callout.target target ∈ callouts → target.entityPath ≠ [])
    (index position : Nat) :
    calloutFaults index position callouts
      = ((callouts.zipIdx position).filter (·.1.isNameless)).map
        fun numbered => .emptyProcedure index numbered.2 := by
  induction callouts generalizing position with
  | nil => rfl
  | cons callout rest ih =>
    have hrest := ih (fun target htarget => h target (by simp [htarget])) (position + 1)
    cases callout with
    | hardware part => simpa [calloutFaults, calloutFault, Callout.isNameless] using hrest
    | target target =>
      have hpath := h target (by simp)
      simpa [calloutFaults, calloutFault, Callout.isNameless, hpath] using hrest
    | procedure procedure =>
      by_cases hname : procedure.procedure = ""
      · simpa [calloutFaults, calloutFault, Callout.isNameless, hname] using hrest
      · simpa [calloutFaults, calloutFault, Callout.isNameless, hname] using hrest

/-- The faults of an entry that come from what it was told: the message it was given is empty, or a
procedure it was asked to call out has no name. -/
def toldFaults (message : String) (index : Nat) (entry : Entry) : List EntryFault :=
  (if message = "" then [.emptyMessage index] else [])
    ++ (entry.callouts.zipIdx.filter (·.1.isNameless)).map
      fun numbered => .emptyProcedure index numbered.2

theorem faults_ofGroup (hlookup : lookup.findByPath lookup.root [] = none) (index : Nat)
    (logId : UInt16) (packages : List Package) :
    (ofGroup decoder lookup options logId packages).faults index
      = (ofGroup decoder lookup options logId packages).toldFaults options.message index := by
  have hsound : (gather decoder lookup options .undefined .none packages).2.Sound :=
    gather_sound hlookup packages .undefined Contribution.sound_none
  have hposition : positionFaults index (ofGroup decoder lookup options logId packages).userData
      = [] :=
    positionFaults_of_last (fun pair hpair => (hsound.keys pair hpair).ne_positionKey) _ _
  have hkeys : ∀ pair ∈ (ofGroup decoder lookup options logId packages).userData,
      pair.1 ≠ "" := by
    intro pair hpair
    rcases List.mem_append.mp hpair with hpair | hpair
    · exact (hsound.keys pair hpair).ne_empty
    · cases List.mem_singleton.mp hpair
      simp [positionKey]
  have hpaths : ∀ target,
      Callout.target target ∈ (ofGroup decoder lookup options logId packages).callouts →
        target.entityPath ≠ [] := hsound.paths
  rw [faults, toldFaults, hposition, keyFaults_of_ne_empty hkeys, calloutFaults_of_paths hpaths,
    List.append_nil, List.append_nil, ofGroup_message]

/-- Without definitions nothing is called out. -/
theorem gather_raw_callouts (severity : Severity) (sum : Contribution) (packages : List Package) :
    (gather Decoder.raw lookup options severity sum packages).2.callouts = sum.callouts := by
  have hnone : ∀ contribution ∈ Package.contributions Decoder.raw lookup options packages,
      contribution.callouts = [] := by
    intro contribution hmem
    obtain ⟨package, -, hpackage⟩ := List.mem_filterMap.mp hmem
    obtain ⟨failure, hdecode, hconvert⟩ :=
      (Package.contribution?_eq_some_iff.mp hpackage).converted
    cases hdecode
    cases hconvert
    rfl
  rw [gather_eq, Contribution.append, Contribution.callouts_concat,
    List.flatMap_eq_nil_iff.mpr hnone, List.append_nil]

end Entry

theorem Entries.faultsFrom_eq (index : Nat) {message : String} {entries : Entries}
    (h : ∀ entry ∈ entries, ∀ index, entry.faults index = entry.toldFaults message index) :
    entries.faultsFrom index
      = (entries.zipIdx index).flatMap
        fun numbered => numbered.1.toldFaults message numbered.2 := by
  induction entries generalizing index with
  | nil => rfl
  | cons entry rest ih =>
    rw [faultsFrom, List.zipIdx_cons, List.flatMap_cons, h entry (by simp),
      ih _ fun other hother => h other (by simp [hother])]

/-- The faults of a report are those it was told: one empty message for each entry when the message
is empty, and one for each procedure without a name. No key and no path that a decoder gives makes
another. With nothing but the raw decoder and a message there are none. -/
theorem report_faults (hlookup : lookup.Provided)
    (h : Report.ofResponse buffer decoder lookup options = .ok report) :
    report.entries.faults
        = report.entries.zipIdx.flatMap
          (fun numbered => numbered.1.toldFaults options.message numbered.2) ∧
      (decoder = Decoder.raw → options.message ≠ "" → report.entries.faults = []) := by
  have hentries := Report.entries_of_response h
  have hgroups : ∀ entry ∈ report.entries, ∃ logId packages,
      Entry.ofGroup decoder lookup options logId packages = entry := by
    intro entry hentry
    rw [hentries] at hentry
    obtain ⟨logId, -, rfl⟩ := List.mem_map.mp hentry
    exact ⟨logId, _, rfl⟩
  have hfaults := Entries.faultsFrom_eq 0 fun entry hentry index => by
    obtain ⟨logId, packages, rfl⟩ := hgroups entry hentry
    exact Entry.faults_ofGroup (hlookup.findByPath_nil _) index logId packages
  refine ⟨hfaults, ?_⟩
  rintro rfl hmessage
  rw [Entries.faults, hfaults, List.flatMap_eq_nil_iff]
  rintro ⟨entry, index⟩ hnumbered
  obtain ⟨logId, packages, rfl⟩ := hgroups entry (List.fst_mem_of_mem_zipIdx hnumbered)
  have hcallouts : (Entry.ofGroup Decoder.raw lookup options logId packages).callouts = [] :=
    Entry.gather_raw_callouts _ _ _
  simp [Entry.toldFaults, hmessage, hcallouts]

/-- A decoder that asks for all that a report has to be wary of: keys that are empty or that of the
position, an empty path, and a procedure without a name. -/
def awkward : Decoder := fun _ _ _ _ =>
  .ok {
    kind := .unsupported
    message := ""
    returnCode := ""
    returnCodeText := ""
    data := [("", "none"), (positionKey, "none")]
    parts := [⟨"", "", [], 0, true⟩]
    targets := [⟨[], true, "", true, true, ""⟩, ⟨[0xAB], true, "", true, true, ""⟩]
    procedures := [⟨"", ""⟩, ⟨"EPUB", ""⟩] }

/-- One package. -/
def singleResponse : Bytes :=
  [0xC0, 0xDE, 0xA8, 1] ++ [0, 0, 0, 0]
    ++ [0xFB, 0xAD, 0, 4, 0, 9, 0xA1, 2, 0, 7, 0x20, 5, 0, 0, 0, 4]
    ++ [0, 0, 0, 7]

/-- A document with one target. -/
def singleTarget : TargetDocument := { targets := [{ name := "a", physicalPath := some "0xAB" }] }

/-- The tree of `singleTarget`. -/
def singleTree : TargetTree where
  nodes := [
    ⟨"system", none, [1], none, none, none, none⟩,
    ⟨"a", some 0, [], some [0xAB], none, none, none⟩]

/-- Of all that the decoder asks for, only the nameless procedure is at fault. The target found is
the first callout, so that procedure is the second one. -/
theorem report_faults_awkward :
    TargetTree.ofDocument singleTarget = .ok singleTree ∧
    ∃ report,
      Report.ofResponse singleResponse awkward singleTree.toLookup { message := "" }
        = .ok report ∧
      report.entries.faults = [.emptyMessage 0, .emptyProcedure 0 1] := by
  have htree : TargetTree.ofDocument singleTarget = .ok singleTree := by decide +kernel
  have htold : (Report.ofResponse singleResponse awkward singleTree.toLookup
      { message := "" }).map (fun report =>
        report.entries.zipIdx.flatMap fun numbered => numbered.1.toldFaults "" numbered.2)
      = .ok [.emptyMessage 0, .emptyProcedure 0 1] := by decide +kernel
  obtain ⟨report, h, hfaults⟩ := Outcome.map_eq_ok_iff.mp htold
  exact ⟨htree, report, h, (report_faults (.tree htree) h).1.trans hfaults⟩

end FirstFailure
