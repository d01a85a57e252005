import FirstFailure.Proofs.Report.Entries
import FirstFailure.Proofs.Response.Framing
/-!
# Framing and packages decide whether there is a report

A response makes no report when it cannot be read, or when its region is too short for a package.
Every other response makes one. Neither the status that it tells, nor what a decoder makes of its
packages, nor what a tree knows of their targets can prevent that. The region that the framing finds
is always part of the buffer.
-/

namespace FirstFailure

variable {buffer : Bytes} {decoder : Decoder} {lookup : TargetLookup} {options : ReportOptions}
  {report : Report}

/-! ## Regions of framed buffers -/

/-- There is no region when the status word is the distance word, else it lies in the buffer. -/
theorem Frame.region_cases {frame : Frame} (h : Frame.read buffer true = .ok frame) :
    (Frame.distanceWords buffer = 2 ∧ frame.region = none) ∨
      (3 ≤ Frame.distanceWords buffer ∧ ∃ region, frame.region = some region ∧
        region.start ≤ region.stop ∧ region.stop ≤ buffer.length ∧
        (region.slice buffer).length = 4 * (Frame.distanceWords buffer - 3)) := by
  have hframed := Frame.framed_of_read h
  have hroom := hframed.room
  have hinside := hframed.inside
  rw [Frame.read_of_framed hframed, Except.ok.injEq] at h
  subst h
  by_cases hwords : 3 ≤ Frame.distanceWords buffer
  · refine .inr ⟨hwords, _, if_pos ⟨rfl, hwords⟩, ?_, Nat.sub_le _ _,
      Frame.length_slice hframed hwords⟩
    show Frame.headerStart buffer + 8 ≤ buffer.length - 4
    rw [Frame.headerStart]
    omega
  · exact .inl ⟨by omega, if_neg fun hboth => hwords hboth.2⟩

theorem length_packageRegion {frame : Frame} (h : Frame.read buffer true = .ok frame) :
    (packageRegion buffer).length = 4 * (Frame.distanceWords buffer - 3) := by
  simp only [packageRegion, h]
  rcases Frame.region_cases h with ⟨hwords, hregion⟩ | ⟨-, region, hregion, -, -, hlength⟩
  · rw [hregion, hwords]
    rfl
  · rw [hregion]
    exact hlength

/-- The faults of packages are other faults than that of a region outside the buffer. -/
theorem Package.readAll_ne_outOfBounds (offset : Nat) (bytes : Bytes) (region : Region)
    (len : Nat) : readAll offset bytes ≠ .error (.outOfBounds region len) := by
  intro h
  obtain ⟨chunks, rest, hsplit, hshort | ⟨hlong, e, hfault⟩⟩ :=
    exists_split offset (offset + bytes.length) bytes
  · rw [readAll_of_split offset hsplit hshort] at h
    cases h
  · rw [readAll_of_fault hsplit hlong hfault, Except.error.injEq] at h
    subst h
    cases hfault

/-- The bounds of a region that the framing finds are never at fault. -/
theorem Contents.read_ne_outOfBounds (buffer : Bytes) (region : Region) (len : Nat) :
    Contents.read buffer ≠ .error (.region (.outOfBounds region len)) := by
  intro h
  cases hframe : Frame.read buffer true with
  | error e =>
    rw [read, hframe] at h
    cases h
  | ok frame =>
    rw [read_of_frame hframe] at h
    rcases Frame.region_cases hframe with ⟨-, hnone⟩ | ⟨-, found, hfound, hstart, hstop, -⟩
    · rw [hnone] at h
      cases h
    · rw [hfound] at h
      simp only [Package.groups_read_of_inside hstart hstop] at h
      have hother := Package.readAll_ne_outOfBounds found.start (found.slice buffer) region len
      cases hread : Package.readAll found.start (found.slice buffer) with
      | error e =>
        rw [hread] at h hother
        cases h
        exact hother rfl
      | ok packages =>
        rw [hread] at h
        cases h

/-- A region without room for a package can be read, whatever its bytes. -/
theorem Contents.read_of_short {frame : Frame} (h : Frame.read buffer true = .ok frame)
    (hwords : Frame.distanceWords buffer ≤ 6) : Contents.read buffer = .ok ⟨frame, .ofList []⟩ := by
  rw [read_of_frame h]
  rcases Frame.region_cases h with ⟨-, hnone⟩ | ⟨-, found, hfound, hstart, hstop, hlength⟩
  · rw [hnone]
    rfl
  · rw [hfound]
    simp only [Package.groups_read_of_inside hstart hstop,
      Package.readAll_short found.start (show (found.slice buffer).length < 16 by omega)]
    rfl

/-- A region that could be read has packages exactly when it has room for one. -/
theorem packagesIn_eq_nil_iff {contents : Contents} (h : Contents.read buffer = .ok contents) :
    packagesIn buffer = [] ↔ Frame.distanceWords buffer ≤ 6 := by
  obtain ⟨hframe, -, chunks, tail, hcarries⟩ := Contents.of_read h
  have hlength := length_packageRegion hframe
  have hshort := hcarries.short
  rw [hcarries.split.covers, List.length_append] at hlength
  rw [hcarries.packagesIn_eq, List.map_eq_nil_iff]
  constructor
  · rintro rfl
    rw [List.flatten_nil, List.length_nil] at hlength
    omega
  · intro hwords
    cases chunks with
    | nil => rfl
    | cons chunk rest =>
      have hchunk := (hcarries.split.wellFormed chunk (.head _)).header_le
      rw [List.flatten_cons, List.length_append] at hlength
      omega

namespace Report

/-! ## Outcomes -/

theorem ofResponse_eq_malformed_iff {error : ContentsError} :
    ofResponse buffer decoder lookup options = .error (.malformed error) ↔
      Contents.read buffer = .error error := by
  rw [ofResponse]
  cases Contents.read buffer with
  | error e =>
    show Except.error (ReportError.malformed e) = _ ↔ _
    simp
  | ok contents =>
    show (if contents.groups.isEmpty then _ else _) = _ ↔ _
    split
    next => simp
    next => exact ⟨nofun, nofun⟩

theorem ofResponse_of_read {contents : Contents} (h : Contents.read buffer = .ok contents) :
    ofResponse buffer decoder lookup options
      = if Frame.distanceWords buffer ≤ 6 then .error .noPackages
        else .ok {
          status := contents.frame.status
          value := contents.frame.value
          entries := contents.groups.toEntries decoder lookup options } := by
  have hempty : contents.groups.isEmpty = true ↔ Frame.distanceWords buffer ≤ 6 := by
    rw [(Contents.of_read h).2.1, Groups.isEmpty_ofList, packagesIn_eq_nil_iff h]
  rw [ofResponse, h]
  show (if contents.groups.isEmpty then _ else _) = _
  simp only [hempty]
  rfl

/-- A framed buffer makes no report for want of packages exactly when its region is too short. -/
theorem ofResponse_eq_noPackages_iff :
    ofResponse buffer decoder lookup options = .error .noPackages ↔
      ∃ frame, Frame.read buffer true = .ok frame ∧ Frame.distanceWords buffer ≤ 6 := by
  constructor
  · intro h
    cases hread : Contents.read buffer with
    | error e =>
      rw [ofResponse_eq_malformed_iff.mpr hread] at h
      cases h
    | ok contents =>
      rw [ofResponse_of_read hread] at h
      split at h
      next hwords => exact ⟨contents.frame, (Contents.of_read hread).1, hwords⟩
      next => cases h
  · rintro ⟨frame, hframe, hwords⟩
    rw [ofResponse_of_read (Contents.read_of_short hframe hwords), if_pos hwords]

/-- What a report tells of a response: its status and its value, and in at least one entry the log
ids of its packages, each where it appears first. -/
structure TellsOf (buffer : Bytes) (frame : Frame) (report : Report) : Prop where
  status : report.status = frame.status
  value : report.value = frame.value
  entries : report.entries ≠ []
  logIds : ∃ chunks tail, Carries buffer chunks tail ∧
    report.entries.map (·.logId)
      = (chunks.map fun chunk => (Package.ofChunk chunk).logId).eraseDups.map some

theorem exists_tellsOf {contents : Contents} (h : Contents.read buffer = .ok contents)
    (hwords : 6 < Frame.distanceWords buffer) :
    ∃ report, ofResponse buffer decoder lookup options = .ok report ∧
      TellsOf buffer contents.frame report := by
  have hreport : ofResponse buffer decoder lookup options = _ := ofResponse_of_read h
  rw [if_neg (by omega)] at hreport
  have hentries := entries_of_response hreport
  refine ⟨_, hreport, rfl, rfl, ?_, ?_⟩
  · rw [hentries, ne_eq, List.map_eq_nil_iff, List.eq_nil_iff_forall_not_mem]
    intro hnone
    obtain ⟨package, hpackage⟩ := List.exists_mem_of_ne_nil (packagesIn buffer) fun hnil =>
      absurd ((packagesIn_eq_nil_iff h).mp hnil) (by omega)
    exact hnone package.logId (List.mem_eraseDups.mpr (List.mem_map_of_mem hpackage))
  · obtain ⟨-, -, chunks, tail, hcarries⟩ := Contents.of_read h
    refine ⟨chunks, tail, hcarries, ?_⟩
    rw [hentries, hcarries.packagesIn_eq, List.map_map, List.map_map]
    rfl

/-- Decoder, tree and options have no part in whether a response makes a report, nor in why it makes
none. -/
theorem ofResponse_outcome (other : Decoder) (otherLookup : TargetLookup)
    (otherOptions : ReportOptions) :
    (ofResponse buffer decoder lookup options).map (fun _ => ())
      = (ofResponse buffer other otherLookup otherOptions).map fun _ => () := by
  cases h : Contents.read buffer with
  | error e => rw [ofResponse_eq_malformed_iff.mpr h, ofResponse_eq_malformed_iff.mpr h]
  | ok contents =>
    rw [ofResponse_of_read h, ofResponse_of_read h]
    split
    next => rfl
    next => rfl

/-- Whether a response makes a report is decided by its framing and its packages. It makes none, for
the reason why it cannot be read, exactly when it cannot be read; that reason is never a region
outside the buffer. It makes none for want of packages exactly when it is framed and its distance is
six words at most, which leaves no region or one of less than sixteen bytes. In all other cases it
makes a report. That is so whatever status it tells, whatever decoder and tree are asked and
whatever the options are, and a failed boot makes entries, or none for the same reason, from the
same responses. -/
theorem report_decided_by_contents (buffer : Bytes) (decoder : Decoder) (lookup : TargetLookup)
    (options : ReportOptions) :
    (∀ error, ofResponse buffer decoder lookup options = .error (.malformed error) ↔
      Contents.read buffer = .error error) ∧
    (∀ region len, Contents.read buffer ≠ .error (.region (.outOfBounds region len))) ∧
    (ofResponse buffer decoder lookup options = .error .noPackages ↔
      ∃ frame, Frame.read buffer true = .ok frame ∧
        2 ≤ Frame.distanceWords buffer ∧ Frame.distanceWords buffer ≤ 6) ∧
    (∀ frame, Frame.read buffer true = .ok frame →
      (Frame.distanceWords buffer = 2 → frame.region = none) ∧
      (3 ≤ Frame.distanceWords buffer → ∃ region, frame.region = some region ∧
        (region.slice buffer).length = 4 * (Frame.distanceWords buffer - 3))) ∧
    (∀ contents, Contents.read buffer = .ok contents → 6 < Frame.distanceWords buffer →
      ∃ report, ofResponse buffer decoder lookup options = .ok report ∧
        TellsOf buffer contents.frame report) ∧
    ∀ (chip : Chip) (other : Decoder) (otherLookup : TargetLookup) (severityMerge : SeverityMerge),
      (chip.bootFailure buffer other otherLookup severityMerge).map (fun _ => ())
        = (ofResponse buffer decoder lookup options).map fun _ => () := by
  refine ⟨fun _ => ofResponse_eq_malformed_iff, Contents.read_ne_outOfBounds buffer, ?_, ?_,
    fun _ => exists_tellsOf, ?_⟩
  · rw [ofResponse_eq_noPackages_iff]
    refine exists_congr fun frame => and_congr_right fun hframe => ?_
    exact (and_iff_right (Frame.framed_of_read hframe).room).symm
  · intro frame hframe
    rcases Frame.region_cases hframe with ⟨hwords, hnone⟩ | ⟨hwords, region, hregion, -, -, hlength⟩
    · exact ⟨fun _ => hnone, fun hmore => by omega⟩
    · exact ⟨fun htwo => by omega, fun _ => ⟨region, hregion, hlength⟩⟩
  · intro chip other otherLookup severityMerge
    rw [ofResponse_outcome other otherLookup (chip.bootFailureOptions severityMerge),
      Chip.bootFailure]
    cases ofResponse buffer other otherLookup (chip.bootFailureOptions severityMerge) with
    | error e => rfl
    | ok report => rfl

/-- A response that tells of a failure, with a value of one byte and one package. -/
def failedResponse : Bytes :=
  [5] ++ [0xC0, 0xDE, 0xA8, 1] ++ [0, 0xFE, 0, 0x0A]
    ++ [0xFB, 0xAD, 0, 4, 0, 1, 0xA8, 1, 0, 7, 0x40, 0, 0, 0, 0, 1] ++ [0, 0, 0, 7]

/-- What `failedResponse` consists of. -/
def failedContents : Contents where
  frame := ⟨[5], ⟨.genericExecutionFailure, .genericFailureInExecution⟩, 1, some ⟨9, 25⟩⟩
  groups := ⟨[(7, [⟨7, 1, 0xA8, 1, .unrecoverable, 0, 1, []⟩])]⟩

/-- A response of a failure, of whose package the decoder makes nothing, still makes a report. -/
theorem report_decided_by_contents_failed :
    (Contents.read failedResponse = .ok failedContents ∧ 6 < Frame.distanceWords failedResponse) ∧
    ∃ report,
      ofResponse failedResponse (fun returnCode _ _ _ => .error (.unknownReturnCode returnCode))
        .none {} = .ok report ∧
      TellsOf failedResponse failedContents.frame report := by
  have hread : Contents.read failedResponse = .ok failedContents := by decide +kernel
  have hwords : 6 < Frame.distanceWords failedResponse := by decide +kernel
  obtain ⟨-, -, -, -, hreport, -⟩ := report_decided_by_contents failedResponse
    (fun returnCode _ _ _ => .error (.unknownReturnCode returnCode)) .none {}
  exact ⟨⟨hread, hwords⟩, hreport failedContents hread hwords⟩

end Report

end FirstFailure
