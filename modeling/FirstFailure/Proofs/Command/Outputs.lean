import FirstFailure.Proofs.Command.Convert
import FirstFailure.Proofs.Report.AttachmentFiles
/-!
# The files that a response is converted to

A response that makes a report is converted to a file of the entries and, when asked for that, a
file of each attachment. One that makes none is converted to nothing. The names of the files tell
the stem of the input and the log ids apart, and so no two of them are the same.
-/

namespace FirstFailure

open Disk AttachmentFile

namespace Report

variable {buffer : Bytes} {decoder : Decoder} {lookup : TargetLookup} {options : ReportOptions}
  {report : Report}

/-- Every entry tells its log id, and its raw packages when they are asked for. -/
theorem entry_fields (h : ofResponse buffer decoder lookup options = .ok report)
    (hattach : options.attachRaw = true) :
    ∀ entry ∈ report.entries, ∃ logId attachment,
      entry.logId = some logId ∧ entry.attachment = some attachment := by
  intro entry hentry
  rw [entries_of_response h] at hentry
  obtain ⟨logId, -, rfl⟩ := List.mem_map.mp hentry
  exact ⟨logId, _, rfl, Entry.ofGroup_attachment _ _ hattach⟩

end Report

namespace AttachmentFile

theorem attached_sublist (entries : Entries) :
    ((attached entries).map (·.1)).Sublist
      (entries.map fun entry => entry.logId.getD defaultLogId) := by
  induction entries with
  | nil => exact .slnil
  | cons entry rest ih =>
    cases hattachment : entry.attachment with
    | none =>
      rw [attached, List.filterMap_cons_none (by simp [hattachment])]
      exact ih.cons _
    | some attachment =>
      rw [attached, List.filterMap_cons_some
        (b := (entry.logId.getD defaultLogId, attachment)) (by simp [hattachment])]
      exact ih.cons_cons _

theorem mem_attached {entries : Entries} {entry : Entry} {logId : UInt16} {attachment : Bytes}
    (h : entry ∈ entries) (hlogId : entry.logId = some logId)
    (hattachment : entry.attachment = some attachment) :
    (logId, attachment) ∈ attached entries :=
  List.mem_filterMap.mpr ⟨entry, h, by simp [hlogId, hattachment]⟩

end AttachmentFile

/-- No two attachments of a report have the same log id. -/
theorem Report.attached_nodup {buffer : Bytes} {decoder : Decoder} {lookup : TargetLookup}
    {options : ReportOptions} {report : Report}
    (h : ofResponse buffer decoder lookup options = .ok report) :
    ((attached report.entries).map (·.1)).Nodup := by
  have hlogIds : (report.entries.map fun entry => entry.logId.getD defaultLogId).Nodup := by
    rw [entries_of_response h, List.map_map]
    simpa [Function.comp_def] using Groups.nodup_eraseDups ((packagesIn buffer).map (·.logId))
  exact hlogIds.sublist (attached_sublist report.entries)

namespace ConvertCommand

variable {command : ConvertCommand} {directory input : String} {bytes : String → Bytes}
  {report : Report}

/-! ## Names -/

theorem no_slash_stem (input : String) : '/' ∉ (stem input).toList := by
  unfold stem
  cases hname : fileName? input with
  | none => decide
  | some name => exact no_slash_withoutExtension (no_slash_fileName? hname)

theorem isFileName_outputName (input : String) : IsFileName (outputName input) :=
  .of_suffix (no_slash_stem input) (by decide) (by decide)

theorem outputName_injective {input other : String} (h : outputName input = outputName other) :
    stem input = stem other := by
  have hchars := congrArg String.toList h
  simp only [outputName, String.toList_append, List.append_cancel_right_eq] at hchars
  exact String.toList_inj.mp hchars

/-- The endings tell entries and attachments apart. -/
theorem keptName_ne_outputName (stem : String) (logId : UInt16) (input : String) :
    keptName stem logId ≠ outputName input := by
  intro heq
  have hchars := congrArg (fun name : String => name.toList.reverse.take 2) heq
  simp [keptName, outputName, String.toList_append] at hchars

/-! ## Files -/

/-- The report of an input whose file holds the given bytes. -/
def reportOf (command : ConvertCommand) (bytes : String → Bytes) (input : String) :
    Except ReportError Report :=
  Report.ofResponse (bytes input) .raw .none command.options

/-- The text of a report's entries. -/
def textOf (report : Report) : String := report.entries.toJson.pretty

/-- The file of a report's entries: their text on lines of its own. -/
def entriesFile (directory input : String) (report : Report) : NamedFile where
  folder := directory
  name := outputName input
  content := (textOf report ++ "\n").toUTF8.toList
  isFileName := isFileName_outputName input

/-- The files of a report's attachments, as far as they are asked for. -/
def attachmentFiles (command : ConvertCommand) (input : String) (report : Report) :
    List NamedFile :=
  match command.attachments with
  | some folder => (attached report.entries).map (keptFile folder (no_slash_stem input))
  | none => []

/-- The files that an input is converted to. -/
def filesOf (command : ConvertCommand) (directory : String) (bytes : String → Bytes)
    (input : String) : List NamedFile :=
  match command.reportOf bytes input with
  | .ok report => command.attachmentFiles input report ++ [entriesFile directory input report]
  | .error _ => []

theorem name_of_mem_attachmentFiles {file : NamedFile}
    (h : file ∈ command.attachmentFiles input report) :
    ∃ logId, file.name = keptName (stem input) logId := by
  unfold attachmentFiles at h
  split at h
  next folder _ =>
    obtain ⟨kept, -, rfl⟩ := List.mem_map.mp h
    exact ⟨kept.1, rfl⟩
  next => cases h

theorem filesOf_of_ok (h : command.reportOf bytes input = .ok report) :
    command.filesOf directory bytes input
      = command.attachmentFiles input report ++ [entriesFile directory input report] := by
  simp only [filesOf, h]

theorem filesOf_of_error {error : ReportError} (h : command.reportOf bytes input = .error error) :
    command.filesOf directory bytes input = [] := by
  simp only [filesOf, h]

/-- The names of an input's files tell its stem. -/
theorem name_of_mem_filesOf {file : NamedFile}
    (h : file ∈ command.filesOf directory bytes input) :
    file.name = outputName input ∨ ∃ logId, file.name = keptName (stem input) logId := by
  unfold filesOf at h
  split at h
  next report _ =>
    rcases List.mem_append.mp h with h | h
    · exact .inr (name_of_mem_attachmentFiles h)
    · cases List.mem_singleton.mp h
      exact .inl rfl
  next => cases h

/-- Inputs of different stems share no name. -/
theorem name_ne_of_stem_ne {other : String} {file otherFile : NamedFile}
    (hne : stem input ≠ stem other) (h : file ∈ command.filesOf directory bytes input)
    (hother : otherFile ∈ command.filesOf directory bytes other) : file.name ≠ otherFile.name := by
  rcases name_of_mem_filesOf h with h | ⟨logId, h⟩ <;>
    rcases name_of_mem_filesOf hother with hother | ⟨otherId, hother⟩ <;> rw [h, hother]
  · exact fun heq => hne (outputName_injective heq)
  · exact (keptName_ne_outputName _ _ _).symm
  · exact keptName_ne_outputName _ _ _
  · exact fun heq => hne (keptName_injective heq).1

theorem nodup_names_filesOf (directory : String) (bytes : String → Bytes) (input : String) :
    ((command.filesOf directory bytes input).map (·.name)).Nodup := by
  cases hreport : command.reportOf bytes input with
  | error error => simp [filesOf_of_error hreport]
  | ok report =>
    have hattached : ((command.attachmentFiles input report).map (·.name)).Nodup := by
      unfold attachmentFiles
      split
      next folder _ =>
        have hnames : ((attached report.entries).map
            (keptFile folder (no_slash_stem input))).map (·.name)
              = ((attached report.entries).map (·.1)).map (keptName (stem input)) := by
          simp [keptFile]
        rw [hnames]
        exact (Report.attached_nodup hreport).map fun _ _ heq => (keptName_injective heq).2
      next => exact List.nodup_nil
    rw [filesOf_of_ok hreport, List.map_append, List.nodup_append]
    refine ⟨hattached, List.nodup_singleton _, ?_⟩
    intro name hname other hother
    cases List.mem_singleton.mp hother
    obtain ⟨file, hfile, rfl⟩ := List.mem_map.mp hname
    obtain ⟨logId, hname⟩ := name_of_mem_attachmentFiles hfile
    rw [hname]
    exact keptName_ne_outputName _ _ _

/-- No two files of any inputs share a name, as long as no two inputs share a stem. -/
theorem nodup_names (directory : String) (bytes : String → Bytes) {inputs : List String}
    (h : (inputs.map stem).Nodup) :
    ((inputs.flatMap (command.filesOf directory bytes)).map (·.name)).Nodup := by
  rw [List.map_flatMap, List.nodup_flatMap]
  refine ⟨fun input _ => nodup_names_filesOf directory bytes input, ?_⟩
  refine (List.pairwise_map.mp h).imp fun {input other} hne => ?_
  intro name hname hother
  obtain ⟨file, hfile, rfl⟩ := List.mem_map.mp hname
  obtain ⟨otherFile, hotherFile, heq⟩ := List.mem_map.mp hother
  exact name_ne_of_stem_ne hne hfile hotherFile heq.symm

/-- No file of an input has the name of a scratch file. -/
theorem not_isScratchName_outputName (input : String) : ¬IsScratchName (outputName input) := by
  rintro ⟨logId, part, -, heq⟩
  have hchars := congrArg (fun name : String => name.toList.reverse.take 2) heq
  simp [outputName, nameSuffix, String.toList_append] at hchars

end ConvertCommand

end FirstFailure
