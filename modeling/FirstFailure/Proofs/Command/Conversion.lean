import FirstFailure.Proofs.Command.Concurrency
import FirstFailure.Proofs.Command.Outputs
/-!
# One conversion as a process

A conversion whose response makes a report writes the files of that report, whatever other
conversions do in the meantime. One whose response makes none writes nothing. Where it prints the
entries, it prints nothing before them.
-/

namespace FirstFailure

open Disk AttachmentFile

namespace Action

variable {α β ε : Type} {folder? : Option String} {bytes : String → Bytes}
  {ends : α → Stage → Prop} {ends' : Except CommandError β → Stage → Prop} {stage : Stage}
  {files files' : Multiset NamedFile}

/-- A successful end of an action. -/
def Succeeds (ends : α → Stage → Prop) (result : Except CommandError α) (stage : Stage) : Prop :=
  ∃ a, result = .ok a ∧ ends a stage

theorem writes_bind {first : Action α} {next : α → Action β}
    (h : Process.Writes folder? bytes (Succeeds ends) stage files first.run)
    (hnext : ∀ a later, ends a later →
      Process.Writes folder? bytes ends' later files' (next a).run) :
    Process.Writes folder? bytes ends' stage (files + files') (first >>= next).run := by
  refine Process.Writes.bind h ?_
  rintro _ later ⟨a, rfl, hends⟩
  exact hnext a later hends

theorem writes_perform (context : String) {operation : Operation}
    (later : operation.Answer → Stage)
    (heffect : ∀ answer, operation.Tells bytes answer →
      operation.Effect folder? answer stage files (later answer)) :
    Process.Writes folder? bytes
      (Succeeds fun answer own => operation.Tells bytes answer ∧ own = later answer)
      stage files (perform context operation).run := by
  rw [← add_zero files]
  refine Process.Writes.bind (.perform later heffect) ?_
  rintro _ own ⟨answer, htells, rfl, rfl⟩
  exact .ended ⟨answer, rfl, htells, rfl⟩

theorem writes_await {process : Process α}
    (h : Process.Writes folder? bytes ends stage files process) :
    Process.Writes folder? bytes (Succeeds ends) stage files (await process).run := by
  rw [← add_zero files]
  exact h.bind fun result later hends => .ended ⟨result, rfl, hends⟩

end Action

namespace AttachmentFile

variable {folder? : Option String} {bytes : String → Bytes}

/-! ## Scratch files as a stage -/

/-- Files in which contents wait for being moved. -/
inductive Waiting : List AttachmentFile → List (UInt16 × Bytes) → Multiset (Place × Bytes) → Prop
    where
  | nil : Waiting [] [] 0
  | cons {file : AttachmentFile} {files : List AttachmentFile} {content : Bytes}
      {contents : List (UInt16 × Bytes)} {scratch : Multiset (Place × Bytes)}
      (h : Waiting files contents scratch) :
    Waiting (file :: files) ((file.logId, content) :: contents) ((file.place, content) ::ₘ scratch)

theorem writes_create (folder : String) (entry : Entry) (attachment : Bytes)
    (scratch : Multiset (Place × Bytes)) :
    Process.Writes folder? bytes
      (fun result later => ∃ file, result = .ok file ∧
        file.logId = entry.logId.getD defaultLogId ∧
        later = ⟨true, (file.place, attachment) ::ₘ scratch⟩)
      ⟨true, scratch⟩ 0 (create folder entry attachment) := by
  rw [← add_zero (0 : Multiset NamedFile)]
  refine Process.Writes.bind (.perform (fun place => ⟨true, (place, attachment) ::ₘ scratch⟩) ?_) ?_
  · rintro place ⟨directory, part, hpart, hplace⟩
    exact .create ⟨directory, _, ⟨_, part, hpart, rfl⟩, hplace⟩ _ _ _ _ _
  · rintro _ later ⟨place, -, rfl, rfl⟩
    exact .ended ⟨⟨_, entry.severity, place⟩, rfl, rfl, rfl⟩

/-- Creating scratch files writes no other files. -/
theorem writes_createAll (folder : String) (created : List AttachmentFile) (entries : Entries)
    (scratch : Multiset (Place × Bytes)) :
    Process.Writes folder? bytes
      (fun result later => ∃ files more, result = .ok (created ++ files) ∧
        Waiting files (attached entries) more ∧ later = ⟨true, scratch + more⟩)
      ⟨true, scratch⟩ 0 (createAll folder created entries) := by
  induction entries generalizing created scratch with
  | nil =>
    refine .ended ⟨[], 0, by rw [List.append_nil], .nil, by rw [add_zero]⟩
  | cons entry rest ih =>
    rw [createAll]
    cases hattachment : entry.attachment with
    | none =>
      rw [attached_cons_none hattachment]
      exact ih created scratch
    | some attachment =>
      rw [attached_cons_some hattachment, ← add_zero (0 : Multiset NamedFile)]
      refine (writes_create folder entry attachment scratch).bind ?_
      rintro _ later ⟨file, rfl, hlogId, rfl⟩
      refine (ih (created ++ [file]) ((file.place, attachment) ::ₘ scratch)).imp ?_
      rintro _ last ⟨files, more, rfl, hwaiting, rfl⟩
      rw [← hlogId]
      refine ⟨file :: files, (file.place, attachment) ::ₘ more, by simp, .cons hwaiting, ?_⟩
      rw [Multiset.cons_add, Multiset.add_cons]

/-- Moving the scratch files writes the files in which the attachments are kept. -/
theorem writes_persistAll {stem : String} (hstem : '/' ∉ stem.toList) (folder : String)
    {files : List AttachmentFile} {contents : List (UInt16 × Bytes)}
    {scratch : Multiset (Place × Bytes)} (h : Waiting files contents scratch) :
    Process.Writes folder? bytes
      (fun result later => (∃ paths, result = .ok paths) ∧ later = ⟨true, 0⟩) ⟨true, scratch⟩
      (contents.map (keptFile folder hstem) : Multiset NamedFile)
      (persistAll folder stem files) := by
  induction h with
  | nil => exact .ended ⟨⟨[], rfl⟩, rfl⟩
  | @cons file files content contents scratch _ ih =>
    let kept := keptFile folder hstem (file.logId, content)
    have hname : ¬IsScratchName kept.name := not_isScratchName_keptName stem file.logId
    have hmove : Process.Writes folder? bytes
        (fun result later => result = .ok () ∧ later = ⟨true, scratch⟩)
        ⟨true, (file.place, content) ::ₘ scratch⟩ {kept}
        (Process.perform (.move file.place kept.path)) := by
      refine (Process.Writes.perform (fun _ => ⟨true, scratch⟩) fun _ _ => .move hname _ _).imp ?_
      rintro _ later ⟨u, -, rfl, rfl⟩
      exact ⟨rfl, rfl⟩
    have hfiles : (((file.logId, content) :: contents).map (keptFile folder hstem)
        : Multiset NamedFile) = {kept} + (contents.map (keptFile folder hstem) + 0) := by
      rw [add_zero, Multiset.singleton_add, Multiset.cons_coe, List.map_cons]
    rw [hfiles]
    refine hmove.bind ?_
    rintro _ later ⟨rfl, rfl⟩
    refine ih.bind ?_
    rintro _ later ⟨⟨paths, rfl⟩, rfl⟩
    exact .ended ⟨⟨_, rfl⟩, rfl⟩

/-! ## Nothing is printed -/

theorem quiet_discardAll (files : List AttachmentFile) : (discardAll files).Quiet := by
  induction files with
  | nil => trivial
  | cons file rest ih => exact (Process.quiet_perform (by simp)).bind fun _ => ih

theorem quiet_createAll (folder : String) (created : List AttachmentFile) (entries : Entries) :
    (createAll folder created entries).Quiet := by
  induction entries generalizing created with
  | nil => trivial
  | cons entry rest ih =>
    rw [createAll]
    cases entry.attachment with
    | none => exact ih created
    | some attachment =>
      have hcreate : (create folder entry attachment).Quiet :=
        (Process.quiet_perform (by simp)).bind fun _ => trivial
      refine hcreate.bind fun result => ?_
      cases result with
      | ok file => exact ih _
      | error error => exact (quiet_discardAll created).bind fun _ => trivial

theorem quiet_persistAll (folder stem : String) (files : List AttachmentFile) :
    (persistAll folder stem files).Quiet := by
  induction files with
  | nil => trivial
  | cons file rest ih =>
    refine (Process.quiet_perform (by simp)).bind fun result => ?_
    cases result with
    | ok u => exact ih.bind fun _ => trivial
    | error error => exact (quiet_discardAll (file :: rest)).bind fun _ => trivial

end AttachmentFile

namespace ConvertCommand

variable {command : ConvertCommand} {lookup : TargetLookup} {directory folder input : String}
  {output : Option String} {bytes : String → Bytes} {report : Report} {naming : ScratchNaming}
  {session after : Session}

/-! ## Attachments -/

theorem writes_writeAttachments {folder? : Option String} (hfolder : folder? = some folder)
    (input : String) (entries : Entries) (begun : Bool) :
    Process.Writes folder? bytes (Action.Succeeds fun _ later => later = ⟨true, 0⟩) ⟨begun, 0⟩
      ((attached entries).map (keptFile folder (no_slash_stem input)) : Multiset NamedFile)
      (writeAttachments input folder entries).run := by
  have hfiles : ((attached entries).map (keptFile folder (no_slash_stem input))
      : Multiset NamedFile) = 0 + (0 + ((attached entries).map
        (keptFile folder (no_slash_stem input)) + 0)) := by
    rw [add_zero, zero_add, zero_add]
  rw [hfiles]
  refine Action.writes_bind (Action.writes_perform _ (fun _ => ⟨true, 0⟩)
    fun _ _ => .makeDirectories hfolder _ _) ?_
  rintro u later ⟨-, rfl⟩
  refine Action.writes_bind (Action.writes_await (writes_createAll folder [] entries 0)) ?_
  rintro _ later ⟨files, more, rfl, hwaiting, rfl⟩
  rw [zero_add, Action.get_ok_bind]
  refine Action.writes_bind (Action.writes_await
    (writes_persistAll (no_slash_stem input) folder hwaiting)) ?_
  rintro _ later ⟨⟨paths, rfl⟩, rfl⟩
  exact .ended ⟨(), rfl, rfl⟩

theorem quiet_writeAttachments (input folder : String) (entries : Entries) :
    (writeAttachments input folder entries).run.Quiet := by
  have hawait : ∀ {α : Type} {process : Process α}, process.Quiet →
      (Action.await process).run.Quiet := fun h => h.bind fun _ => trivial
  have hperform : (Action.perform ("creating attachment directory " ++ folder)
      (.makeDirectories folder)).run.Quiet :=
    (Process.quiet_perform (by simp)).bind fun _ => trivial
  refine hperform.bind fun made => ?_
  cases made with
  | error error => trivial
  | ok u =>
    refine (hawait (quiet_createAll folder [] entries)).bind fun created => ?_
    rcases created with error | ⟨error | files⟩
    · trivial
    · trivial
    · refine (hawait (quiet_persistAll folder (stem input) files)).bind fun moved => ?_
      rcases moved with error | ⟨error | paths⟩
      · trivial
      · trivial
      · trivial

/-! ## Conversions -/

/-- How the conversion of an input ends when nothing goes wrong with files. -/
def resultOf (command : ConvertCommand) (bytes : String → Bytes) (input : String) :
    Except CommandError Unit :=
  match command.reportOf bytes input with
  | .ok _ => .ok ()
  | .error error => .error ⟨"processing " ++ input, error.messages⟩

/-- Whether an input is converted. -/
def accepts (command : ConvertCommand) (bytes : String → Bytes) (input : String) : Bool :=
  (command.reportOf bytes input).isOk

theorem writes_writeEntries {folder? : Option String} (directory input : String)
    (report : Report) :
    Process.Writes folder? bytes (fun result later => result = .ok () ∧ later = ⟨true, 0⟩)
      ⟨true, 0⟩ {entriesFile directory input report}
      (writeEntries (some (join directory (outputName input))) input report).run := by
  have hname : ¬IsScratchName (entriesFile directory input report).name :=
    not_isScratchName_outputName input
  rw [← add_zero {entriesFile directory input report}]
  refine Action.writes_bind (Action.writes_perform _ (fun _ => ⟨true, 0⟩)
    fun _ _ => .write hname 0) ?_
  rintro u later ⟨-, rfl⟩
  rw [← add_zero (0 : Multiset NamedFile)]
  exact .operate (fun _ => ⟨true, 0⟩) (fun _ _ => .print _ _) fun _ _ => .ended ⟨rfl, rfl⟩

/-- The bytes of an input decide about its report, whatever the target tree. -/
theorem ofResponse_eq (command : ConvertCommand) (bytes : String → Bytes) (lookup : TargetLookup)
    (input : String) :
    Report.ofResponse (bytes input) Decoder.raw lookup command.options
      = command.reportOf bytes input :=
  Report.ofResponse_raw_lookup _ lookup

/-- An input with a report is converted to the files of the report, and one without a report to
nothing. The directory for attachments is made in the former case only. -/
theorem writes_convertOne (command : ConvertCommand) (lookup : TargetLookup)
    (bytes : String → Bytes) (directory input : String) :
    Process.Writes command.attachments bytes
      (fun result later => result = command.resultOf bytes input ∧
        later = ⟨command.attachments.isNone || command.accepts bytes input, 0⟩)
      ⟨command.attachments.isNone, 0⟩
      (command.filesOf directory bytes input : Multiset NamedFile)
      (convertOne command lookup (some (join directory (outputName input))) input).run := by
  rw [← zero_add (command.filesOf directory bytes input : Multiset NamedFile)]
  refine Action.writes_bind (Action.writes_perform _ (fun _ => ⟨command.attachments.isNone, 0⟩)
    fun content _ => .read _ content _) ?_
  rintro _ later ⟨rfl, rfl⟩
  rw [ofResponse_eq]
  cases hreport : command.reportOf bytes input with
  | error error =>
    rw [Action.get_error_bind, filesOf_of_error hreport]
    refine .ended ⟨?_, ?_⟩
    · simp only [resultOf, hreport]
    · simp [accepts, hreport, Except.isOk, Except.toBool]
  | ok report =>
    rw [Action.get_ok_bind, filesOf_of_ok hreport, ← Multiset.coe_add]
    have hresult : command.resultOf bytes input = .ok () := by simp only [resultOf, hreport]
    have haccepted : command.accepts bytes input = true := by
      simp [accepts, hreport, Except.isOk, Except.toBool]
    rw [hresult, haccepted, Bool.or_true]
    cases hfolder : command.attachments with
    | none =>
      simp only [attachmentFiles, hfolder]
      rw [Multiset.coe_nil, zero_add]
      exact writes_writeEntries directory input report
    | some folder =>
      simp only [attachmentFiles, hfolder]
      refine Action.writes_bind (writes_writeAttachments rfl input report.entries _) ?_
      rintro u later rfl
      exact writes_writeEntries directory input report

/-! ## A conversion alone -/

/-- A conversion without a report changes nothing. -/
theorem run_convertOne_of_error {error : ReportError}
    (hread : session.disk.readFile input = .ok (bytes input))
    (hreport : command.reportOf bytes input = .error error) :
    (convertOne command lookup output input).run.run naming session
      = (.error ⟨"processing " ++ input, error.messages⟩, session) := by
  have hrun : (Operation.read input).run naming session = (.ok (bytes input), session) := by
    rw [Operation.run, hread]
  unfold convertOne
  rw [Action.run_bind_of_ok (Action.run_perform_of_ok _ hrun), ofResponse_eq, hreport,
    Action.get_error_bind, Action.run_fail]

/-- An undisturbed conversion of an input with a report comes to its last step, and nothing was
printed before. -/
theorem run_convertOne_of_undisturbed (hnaming : naming.Alphanumeric)
    (hreport : command.reportOf bytes input = .ok report)
    (h : (convertOne command lookup output input).run.Undisturbed naming bytes session) :
    ∃ mid, (convertOne command lookup output input).run.run naming session
        = (writeEntries output input report).run.run naming mid ∧
      (writeEntries output input report).run.Undisturbed naming bytes mid ∧
      mid.output = session.output := by
  unfold convertOne at h ⊢
  obtain ⟨content, mid, hread, hgives, hrun⟩ :=
    Action.run_perform_of_undisturbed (Action.undisturbed_first h)
  have hrest := Action.undisturbed_next h hrun
  obtain ⟨-, rfl⟩ := Operation.run_read_eq_ok hread
  have hcontent : content = bytes input := hgives
  subst hcontent
  rw [Action.run_bind_of_ok hrun]
  rw [ofResponse_eq, hreport, Action.get_ok_bind] at hrest ⊢
  cases hfolder : command.attachments with
  | none =>
    simp only [hfolder] at hrest ⊢
    exact ⟨mid, rfl, hrest, rfl⟩
  | some folder =>
    simp only [hfolder] at hrest ⊢
    have hwrites : Process.Writes (some folder) bytes
        (Action.Succeeds fun _ later => later = ⟨true, 0⟩) ⟨true, 0⟩ _
        (writeAttachments input folder report.entries).run :=
      writes_writeAttachments rfl input report.entries true
    obtain ⟨later, u, hok, -⟩ := hwrites.ends_run hnaming (Action.undisturbed_first hrest)
    have hfirst : (writeAttachments input folder report.entries).run.run naming mid
        = (.ok u, ((writeAttachments input folder report.entries).run.run naming mid).2) :=
      Prod.ext hok rfl
    have hlast := Action.undisturbed_next hrest hfirst
    exact ⟨_, Action.run_bind_of_ok hfirst, hlast,
      (quiet_writeAttachments input folder report.entries).output_run⟩

theorem run_writeEntries_output (input : String) (report : Report) (session : Session) :
    (writeEntries none input report).run.run naming session
      = (.ok (), { session with output := session.output ++ textOf report ++ "\n" }) := rfl

theorem run_writeEntries_file {path : String}
    (h : (writeEntries (some path) input report).run.Undisturbed naming bytes session) :
    ∃ after, (writeEntries (some path) input report).run.run naming session = (.ok (), after) ∧
      after.disk.readFile path = .ok (textOf report ++ "\n").toUTF8.toList := by
  obtain ⟨u, mid, hwrite, -, hrun⟩ :=
    Action.run_perform_of_undisturbed (Action.undisturbed_first h)
  refine ⟨_, Action.run_bind_of_ok hrun, ?_⟩
  exact readFile_of_writeFile (Operation.run_write_eq_ok hwrite).1

end ConvertCommand

end FirstFailure
