import FirstFailure.Proofs.Command.Conversion
/-!
# Converting several responses keeps them apart

Inputs are converted into one directory only if no two of them share a stem. Then all the files that
they are converted to have different names, so no conversion touches what another one wrote. Neither
the order of the inputs matters nor which of the conversions moves next.
-/

namespace FirstFailure

open Disk AttachmentFile

namespace ConvertCommand

/-! ## Stems that clash -/

theorem find?_reverse_eq_none_iff {before : List String} {input : String} :
    before.reverse.find? (fun earlier => stem earlier = stem input) = none ↔
      stem input ∉ before.map stem := by
  simp [List.find?_eq_none]

theorem of_find?_reverse_eq_some {before : List String} {earlier input : String}
    (h : before.reverse.find? (fun earlier => stem earlier = stem input) = some earlier) :
    earlier ∈ before ∧ stem earlier = stem input :=
  ⟨List.mem_reverse.mp (List.mem_of_find?_eq_some h), by simpa using List.find?_some h⟩

/-- An input whose stem is not there yet. -/
theorem nodup_stems_concat {before : List String} {input : String}
    (h : (before.map stem).Nodup) (hnew : stem input ∉ before.map stem) :
    ((before ++ [input]).map stem).Nodup := by
  rw [List.map_append, List.map_singleton, List.nodup_append]
  refine ⟨h, List.nodup_singleton _, ?_⟩
  intro name hname other hother
  cases List.mem_singleton.mp hother
  exact fun heq => hnew (heq ▸ hname)

/-- Inputs may be converted together exactly when no two share a stem. -/
theorem clash?_eq_none_iff {before inputs : List String} (h : (before.map stem).Nodup) :
    clash? before inputs = none ↔ ((before ++ inputs).map stem).Nodup := by
  induction inputs generalizing before with
  | nil => simpa [clash?] using h
  | cons input rest ih =>
    unfold clash?
    cases hfind : before.reverse.find? fun earlier => stem earlier = stem input with
    | some earlier =>
      obtain ⟨hmem, hstem⟩ := of_find?_reverse_eq_some hfind
      simp only [reduceCtorEq, false_iff]
      intro hnodup
      rw [List.map_append, List.nodup_append] at hnodup
      exact hnodup.2.2 _ (List.mem_map_of_mem hmem) _ (by simp) hstem
    | none =>
      have hnew := nodup_stems_concat h (find?_reverse_eq_none_iff.mp hfind)
      simp only
      rw [ih hnew, List.append_assoc, List.singleton_append]

/-- A clash names the first input whose stem was there before, and the one before it that had it. -/
theorem of_clash?_eq_some {before inputs : List String} {earlier input : String}
    (hbefore : (before.map stem).Nodup) (h : clash? before inputs = some (earlier, input)) :
    ∃ first between rest,
      before ++ inputs = first ++ earlier :: between ++ input :: rest ∧
        stem earlier = stem input ∧ ((first ++ earlier :: between).map stem).Nodup := by
  induction inputs generalizing before with
  | nil => cases h
  | cons next rest ih =>
    unfold clash? at h
    split at h
    next found hfind =>
      cases h
      obtain ⟨hmem, hstem⟩ := of_find?_reverse_eq_some hfind
      obtain ⟨first, between, rfl⟩ := List.append_of_mem hmem
      exact ⟨first, between, rest, rfl, hstem, hbefore⟩
    next hfind =>
      have hnew := nodup_stems_concat hbefore (find?_reverse_eq_none_iff.mp hfind)
      obtain ⟨first, between, others, hsplit, hrest⟩ := ih hnew h
      exact ⟨first, between, others, by simpa using hsplit, hrest⟩

/-! ## All inputs at the same time -/

variable {command : ConvertCommand} {environment : Environment} {schedule : Schedule}
  {lookup : TargetLookup} {directory input : String} {bytes : String → Bytes}
  {naming : ScratchNaming} {inputs order : List String} {disk made after : Disk} {report : Report}

/-- The conversions of inputs, at the same time, are a process that writes the files of all. -/
theorem writes_convertEach (command : ConvertCommand) (schedule : Schedule)
    (lookup : TargetLookup) (bytes : String → Bytes) (directory : String) (inputs : List String) :
    Process.Writes command.attachments bytes
      (fun results later => results = inputs.map (command.resultOf bytes) ∧
        later = ⟨command.attachments.isNone || inputs.any (command.accepts bytes), 0⟩)
      ⟨command.attachments.isNone, 0⟩
      (inputs.flatMap (command.filesOf directory bytes) : Multiset NamedFile)
      (convertEach command schedule lookup directory inputs) := by
  induction inputs with
  | nil => exact .ended ⟨rfl, by rw [List.any_nil, Bool.or_false]⟩
  | cons input rest ih =>
    have hstage : (⟨command.attachments.isNone, 0⟩ : Stage)
        = Stage.beside ⟨command.attachments.isNone, 0⟩ ⟨command.attachments.isNone, 0⟩ := by
      rw [Stage.beside, Bool.or_self, add_zero]
    have hfiles : ((input :: rest).flatMap (command.filesOf directory bytes) : Multiset NamedFile)
        = command.filesOf directory bytes input
          + rest.flatMap (command.filesOf directory bytes) + 0 := by
      rw [List.flatMap_cons, add_zero, Multiset.coe_add]
    rw [hstage, hfiles]
    have hboth := (writes_convertOne command lookup bytes directory input).both ih
      (schedule (rest.map fun input =>
        (convertOne command lookup (some (join directory (outputName input))) input).run).length)
    refine hboth.bind ?_
    rintro ⟨result, results⟩ later ⟨own, other, ⟨hresult, rfl⟩, ⟨hresults, rfl⟩, rfl⟩
    refine .ended ⟨?_, ?_⟩
    · rw [List.map_cons, ← hresult, ← hresults]
    · rw [Stage.beside, List.any_cons, add_zero]
      cases command.attachments.isNone with
      | true => rfl
      | false => rfl

/-- The disk with the directory for attachments, if there is to be one. -/
def prepare (command : ConvertCommand) (disk : Disk) : Disk :=
  match command.attachments with
  | some folder => (disk.makeDirectories folder).2
  | none => disk

theorem prepare_extends (command : ConvertCommand) (disk : Disk) :
    disk.Extends (command.prepare disk) := by
  unfold prepare
  split
  · exact makeDirectories_extends _ _
  · exact .refl disk

/-- The disk with the directory for attachments, if some input is converted. -/
def prepareFor (command : ConvertCommand) (bytes : String → Bytes) (inputs : List String)
    (disk : Disk) : Disk :=
  if inputs.any (command.accepts bytes) then command.prepare disk else disk

theorem prepareFor_extends (inputs : List String) (disk : Disk) :
    disk.Extends (command.prepareFor bytes inputs disk) := by
  unfold prepareFor
  split
  · exact prepare_extends command disk
  · exact .refl disk

theorem prepareFor_perm (h : order.Perm inputs) (disk : Disk) :
    command.prepareFor bytes order disk = command.prepareFor bytes inputs disk := by
  have hany : order.any (command.accepts bytes) = inputs.any (command.accepts bytes) := by
    rw [Bool.eq_iff_iff, List.any_eq_true, List.any_eq_true]
    simp only [h.mem_iff]
  rw [prepareFor, prepareFor, hany]

/-- The disk before any conversion. -/
theorem at_start (command : ConvertCommand) (disk : Disk) :
    Process.At disk (command.prepare disk) command.attachments ⟨command.attachments.isNone, 0⟩ 0
      disk := by
  unfold prepare
  cases command.attachments with
  | none => exact .begun (by simp) (.none disk)
  | some folder => exact .before

/-- The disk after all conversions. -/
theorem received_at_end {files : List NamedFile}
    (h : Process.At disk (command.prepare disk) command.attachments
      ⟨command.attachments.isNone || inputs.any (command.accepts bytes), 0⟩
      (files : Multiset NamedFile) after) :
    (command.prepareFor bytes inputs disk).Received files after := by
  unfold prepareFor
  cases hany : inputs.any (command.accepts bytes) with
  | true =>
    rw [hany, Bool.or_true] at h
    cases h with
    | begun _ h => exact h.received
  | false =>
    rw [hany, Bool.or_false] at h
    unfold prepare at h
    cases hfolder : command.attachments with
    | none =>
      simp only [hfolder] at h
      cases h with
      | begun _ h => exact h.received
    | some folder =>
      simp only [hfolder, Option.isNone_some] at h
      generalize hfiles : (files : Multiset NamedFile) = written at h
      cases h with
      | before =>
        rw [Multiset.coe_eq_zero] at hfiles
        rw [hfiles]
        exact .none disk

/-- All inputs at the same time: the results are those of the reports, in order, and the disk has
received the files of all, whichever conversion moved next. -/
theorem run_convertEach (hnaming : naming.Alphanumeric) (hstems : (inputs.map stem).Nodup)
    (h : (convertEach command schedule lookup directory inputs).Undisturbed naming bytes
      { disk := made }) :
    ((convertEach command schedule lookup directory inputs).run naming { disk := made }).1
        = inputs.map (command.resultOf bytes) ∧
      (command.prepareFor bytes inputs made).Received
        (inputs.flatMap (command.filesOf directory bytes))
        ((convertEach command schedule lookup directory inputs).run naming
          { disk := made }).2.disk := by
  have hprepared : ∀ folder, command.attachments = some folder →
      (made.makeDirectories folder).2 = command.prepare made := by
    intro folder hfolder
    simp only [prepare, hfolder]
  have hnames : ((0 + (inputs.flatMap (command.filesOf directory bytes) : Multiset NamedFile)).map
      (·.name)).Nodup := by
    rw [zero_add, Multiset.map_coe, Multiset.coe_nodup]
    exact nodup_names directory bytes hstems
  obtain ⟨later, ⟨hresults, rfl⟩, hend⟩ :=
    (writes_convertEach command schedule lookup bytes directory inputs).run hnaming hprepared h
      (at_start command made) hnames
  rw [zero_add] at hend
  exact ⟨hresults, received_at_end hend⟩

theorem failures_eq_nil_iff (command : ConvertCommand) (bytes : String → Bytes)
    (inputs : List String) :
    failures inputs (inputs.map (command.resultOf bytes)) = [] ↔
      ∀ input ∈ inputs, ∃ report, command.reportOf bytes input = .ok report := by
  induction inputs with
  | nil => simp [failures]
  | cons input rest ih =>
    rw [List.forall_mem_cons, ← ih, List.map_cons]
    cases hreport : command.reportOf bytes input with
    | ok report => simp [failures, resultOf, hreport]
    | error error => simp [failures, resultOf, hreport]

/-! ## The whole command -/

theorem run_loadTargets (reader : YamlReader) (naming : ScratchNaming) (targets : Option String)
    (session : Session) :
    ((loadTargets reader targets).run.run naming session).2 = session := by
  cases targets with
  | none => rfl
  | some path =>
    unfold loadTargets
    cases htext : session.disk.readText path with
    | error error => rw [Action.run_bind_of_error (Action.run_readText_of_error _ htext)]
    | ok text =>
      rw [Action.run_bind_of_ok (Action.run_readText_of_ok _ htext)]
      cases TargetTree.parse reader text with
      | error error => rw [Action.run_bind_of_error (Action.run_get_error _ _ error)]
      | ok tree => rfl

/-- What follows the conversions does not change the disk, and it succeeds if they all did. -/
theorem run_convertMany (environment : Environment) (lookup : TargetLookup)
    (naming : ScratchNaming) (houtput : command.output = some directory)
    (hclash : clash? [] command.inputs = none)
    (hmade : disk.makeDirectories directory = (.ok (), made)) :
    let each := (convertEach command environment.schedule lookup directory command.inputs).run
      naming { disk := made }
    ∃ result last,
      (convertMany environment command lookup).run.run naming { disk } = (result, last) ∧
      last.disk = each.2.disk ∧ (result = .ok () ↔ failures command.inputs each.1 = []) := by
  have hrun : (Operation.makeDirectories directory).run naming { disk }
      = (.ok (), { disk := made }) := by
    simp only [Operation.run, hmade]
  unfold convertMany
  simp only [houtput, hclash]
  rw [Action.run_bind_of_ok (Action.run_perform_of_ok _ hrun),
    Action.run_bind_of_ok (Action.run_await _)]
  have hsay : ∀ (failure : String × CommandError) session, ∃ last,
      (do
        Action.printError ("FAILED " ++ failure.1 ++ ": " ++ failure.2.line)
        pure (ForInStep.yield PUnit.unit) : Action (ForInStep PUnit)).run.run naming session
          = (.ok (.yield ⟨⟩), last) ∧ last.disk = session.disk :=
    fun _ _ => ⟨_, rfl, rfl⟩
  rcases (convertEach command environment.schedule lookup directory command.inputs).run naming
    { disk := made } with ⟨results, after⟩
  obtain ⟨said, hsaid, hdisk⟩ :=
    Action.run_forIn_of_ok hsay (failures command.inputs results) after
  rw [Action.run_bind_of_ok hsaid]
  simp only
  cases failures command.inputs results with
  | nil => exact ⟨.ok (), _, rfl, hdisk, by simp⟩
  | cons failure rest => exact ⟨.error _, said, rfl, hdisk, by simp⟩

theorem run_of_several (h : 2 ≤ command.inputs.length) :
    command.run environment
      = loadTargets environment.reader command.targets >>= command.convertMany environment := by
  unfold run
  congr
  funext lookup
  split
  next input hinputs =>
    rw [hinputs] at h
    simp at h
  next => rfl

/-- What converting inputs into a directory comes to, on a disk on which that directory was made. -/
structure KeepsApart (environment : Environment) (command : ConvertCommand)
    (lookup : TargetLookup) (directory : String) (bytes : String → Bytes) (disk made : Disk)
    (outcome : Outcome) : Prop where
  /-- No two files have the same name, whatever their directories. -/
  names : ((command.inputs.flatMap (command.filesOf directory bytes)).map (·.name)).Nodup
  /-- The entries of a report are in a file named after the stem of the input. -/
  entries : ∀ input ∈ command.inputs, ∀ report, command.reportOf bytes input = .ok report →
    outcome.session.disk.readFile (join directory (stem input ++ ".json"))
      = .ok (textOf report ++ "\n").toUTF8.toList
  /-- Every entry has an attachment, and it is in a file named after the stem and the log id. -/
  attachments : ∀ input ∈ command.inputs, ∀ report folder,
    command.reportOf bytes input = .ok report → command.attachments = some folder →
    ∀ entry ∈ report.entries, ∃ logId attachment,
      entry.logId = some logId ∧ entry.attachment = some attachment ∧
        outcome.session.disk.readFile (join folder
          (stem input ++ "-slid-" ++ Hex.padded .lower 4 logId.toNat ++ ".bin")) = .ok attachment
  /-- All else is as it was, but for new directories. -/
  nothingElse : ∀ place,
    (∀ input ∈ command.inputs, ∀ file ∈ command.filesOf directory bytes input,
      outcome.session.disk.follow file.path ≠ .ok place) →
    outcome.session.disk.item? place = disk.item? place ∨
      disk.item? place = none ∧ outcome.session.disk.item? place = some .directory
  /-- An input without a report writes nothing. -/
  rejected : ∀ input error, command.reportOf bytes input = .error error →
    command.filesOf directory bytes input = [] ∧
      ∀ output naming session, session.disk.readFile input = .ok (bytes input) →
        ((convertOne command lookup output input).run.run naming session).2 = session
  /-- In another order, and when other conversions move at other moments, the disk is left with the
  same on it. -/
  anyOrder : ∀ order naming schedule, order.Perm command.inputs → naming.Alphanumeric →
    (convertEach command schedule lookup directory order).Undisturbed naming bytes
      { disk := made } →
    ∀ place, ((convertEach command schedule lookup directory order).run naming
      { disk := made }).2.disk.item? place = outcome.session.disk.item? place
  /-- On its own an input is converted to the same entries, in a file or on the output. -/
  alone : ∀ input ∈ command.inputs, ∀ report, command.reportOf bytes input = .ok report →
    ∀ naming session lookup, naming.Alphanumeric →
      (loadTargets environment.reader command.targets).run.run naming session
        = (.ok lookup, session) →
      (∀ path, (convertOne command lookup (some path) input).run.Undisturbed naming bytes session →
        ∃ after, (run environment { command with inputs := [input], output := some path }).run.run
            naming session = (.ok (), after) ∧
          after.disk.readFile path = .ok (textOf report ++ "\n").toUTF8.toList) ∧
      ((convertOne command lookup none input).run.Undisturbed naming bytes session →
        ∃ after, (run environment { command with inputs := [input], output := none }).run.run
            naming session = (.ok (), after) ∧
          after.output = session.output ++ textOf report ++ "\n")
  /-- The exit tells whether every input has a report. -/
  exit : outcome.exitCode = 0 ↔
    ∀ input ∈ command.inputs, ∃ report, command.reportOf bytes input = .ok report

/-! ## What the received files are -/

section

variable {base : Disk}

theorem readFile_entries
    (h : base.Received (command.inputs.flatMap (command.filesOf directory bytes)) after)
    (hinput : input ∈ command.inputs) (hreport : command.reportOf bytes input = .ok report) :
    after.readFile (join directory (stem input ++ ".json"))
      = .ok (textOf report ++ "\n").toUTF8.toList := by
  have hmem : entriesFile directory input report
      ∈ command.inputs.flatMap (command.filesOf directory bytes) :=
    List.mem_flatMap.mpr ⟨input, hinput, by simp [filesOf_of_ok hreport]⟩
  have hread := h.readFile hmem
  exact hread

theorem readFile_attachment {folder : String} {entry : Entry}
    (h : base.Received (command.inputs.flatMap (command.filesOf directory bytes)) after)
    (hattach : command.attachments.isSome = true → command.options.attachRaw = true)
    (hinput : input ∈ command.inputs) (hreport : command.reportOf bytes input = .ok report)
    (hfolder : command.attachments = some folder) (hentry : entry ∈ report.entries) :
    ∃ logId attachment, entry.logId = some logId ∧ entry.attachment = some attachment ∧
      after.readFile (join folder (keptName (stem input) logId)) = .ok attachment := by
  have hraw := hattach (by simp [hfolder])
  obtain ⟨logId, attachment, hlogId, hattachment⟩ := Report.entry_fields hreport hraw entry hentry
  have hkept : keptFile folder (no_slash_stem input) (logId, attachment)
      ∈ command.attachmentFiles input report := by
    simp only [attachmentFiles, hfolder]
    exact List.mem_map.mpr ⟨_, mem_attached hentry hlogId hattachment, rfl⟩
  have hmem : keptFile folder (no_slash_stem input) (logId, attachment)
      ∈ command.inputs.flatMap (command.filesOf directory bytes) :=
    List.mem_flatMap.mpr ⟨input, hinput, by simp [filesOf_of_ok hreport, hkept]⟩
  have hread := h.readFile hmem
  exact ⟨logId, attachment, hlogId, hattachment, hread⟩

/-- Where no file was received there is what was there, or a new directory. -/
theorem item?_of_received {place : Place} (hextends : disk.Extends base)
    (h : base.Received (command.inputs.flatMap (command.filesOf directory bytes)) after)
    (hfree : ∀ input ∈ command.inputs, ∀ file ∈ command.filesOf directory bytes input,
      after.follow file.path ≠ .ok place) :
    after.item? place = disk.item? place ∨
      disk.item? place = none ∧ after.item? place = some .directory := by
  have hothers := h.others place fun file hfile hfollow => by
    obtain ⟨input, hinput, hfile⟩ := List.mem_flatMap.mp hfile
    exact hfree input hinput file hfile (h.directories.follow_iff.mp hfollow)
  rw [hothers]
  exact hextends place

/-- The same files are received in any order of the inputs. -/
theorem item?_of_perm
    (h : (command.prepareFor bytes inputs made).Received
      (inputs.flatMap (command.filesOf directory bytes)) after)
    (hperm : order.Perm inputs) (hnaming : naming.Alphanumeric) (hstems : (inputs.map stem).Nodup)
    (hundisturbed : (convertEach command schedule lookup directory order).Undisturbed naming bytes
      { disk := made }) (place : Place) :
    ((convertEach command schedule lookup directory order).run naming
      { disk := made }).2.disk.item? place = after.item? place := by
  have hstems' : (order.map stem).Nodup := (hperm.map stem).nodup_iff.mpr hstems
  obtain ⟨-, hreceived⟩ := run_convertEach hnaming hstems' hundisturbed
  rw [prepareFor_perm hperm] at hreceived
  apply hreceived.item?_eq h
  intro file
  exact (hperm.flatMap_right _).mem_iff

end

/-! ## An input on its own -/

theorem run_alone {output : Option String} {session : Session}
    (hload : (loadTargets environment.reader command.targets).run.run naming session
      = (.ok lookup, session)) :
    (run environment { command with inputs := [input], output }).run.run naming session
      = (convertOne command lookup output input).run.run naming session := by
  unfold run
  rw [Action.run_bind_of_ok hload]
  rfl

theorem run_alone_file {session : Session} {path : String} (hnaming : naming.Alphanumeric)
    (hreport : command.reportOf bytes input = .ok report)
    (hload : (loadTargets environment.reader command.targets).run.run naming session
      = (.ok lookup, session))
    (h : (convertOne command lookup (some path) input).run.Undisturbed naming bytes session) :
    ∃ after, (run environment { command with inputs := [input], output := some path }).run.run
        naming session = (.ok (), after) ∧
      after.disk.readFile path = .ok (textOf report ++ "\n").toUTF8.toList := by
  obtain ⟨mid, hrun, hentries, -⟩ := run_convertOne_of_undisturbed hnaming hreport h
  rw [run_alone hload, hrun]
  exact run_writeEntries_file hentries

theorem run_alone_output {session : Session} (hnaming : naming.Alphanumeric)
    (hreport : command.reportOf bytes input = .ok report)
    (hload : (loadTargets environment.reader command.targets).run.run naming session
      = (.ok lookup, session))
    (h : (convertOne command lookup none input).run.Undisturbed naming bytes session) :
    ∃ after, (run environment { command with inputs := [input], output := none }).run.run
        naming session = (.ok (), after) ∧
      after.output = session.output ++ textOf report ++ "\n" := by
  obtain ⟨mid, hrun, -, hquiet⟩ := run_convertOne_of_undisturbed hnaming hreport h
  refine ⟨_, by rw [run_alone hload, hrun, run_writeEntries_output], ?_⟩
  rw [hquiet]

end ConvertCommand

namespace Command

open ConvertCommand

/-- Attachments in files need raw packages, so a command line that asks for the former asks for the
latter. -/
theorem attachRaw_of_parse {line : List String} {command : ConvertCommand}
    (h : parse line = .ok (.convert command)) (hattachments : command.attachments.isSome = true) :
    command.options.attachRaw = true := by
  unfold parse at h
  obtain ⟨⟨words, rest⟩, -, h⟩ := Outcome.bind_eq_ok_iff.mp h
  have hmake : ∃ words, ofConvertWords words = .ok (.convert command) := by
    simp only at h
    split at h
    next =>
      obtain ⟨words, -, hmake⟩ := Outcome.bind_eq_ok_iff.mp h
      exact ⟨words, hmake⟩
    next =>
      obtain ⟨words, -, hmake⟩ := Outcome.bind_eq_ok_iff.mp h
      unfold ofInfoWords at hmake
      split at hmake <;> cases hmake
    next =>
      obtain ⟨words, -, hmake⟩ := Outcome.bind_eq_ok_iff.mp h
      unfold ofValidateWords at hmake
      split at hmake <;> cases hmake
    next => cases h
    next => cases h
  obtain ⟨words, hmake⟩ := hmake
  unfold ofConvertWords at hmake
  split at hmake
  next => cases hmake
  next =>
    cases hmake
    simp only at hattachments ⊢
    rw [hattachments, Bool.or_true]

variable {environment : Environment} {line : List String} {disk made : Disk}
  {command : ConvertCommand} {lookup : TargetLookup} {directory : String} {bytes : String → Bytes}

theorem execute_of_ok {last : Session} (hline : parse line = .ok (.convert command))
    (hrun : (command.run environment).run.run environment.naming { disk } = (.ok (), last)) :
    execute environment line disk = ⟨0, last⟩ := by
  simp only [execute, hline, run, hrun]

theorem execute_of_error {error : CommandError} {last : Session}
    (hline : parse line = .ok (.convert command))
    (hrun : (command.run environment).run.run environment.naming { disk } = (.error error, last)) :
    execute environment line disk
      = ⟨1, { last with errors := last.errors ++ error.report }⟩ := by
  simp only [execute, hline, run, hrun]

/-- After the target tree is loaded and the directory made, the disk is what the conversions make
of it, and the exit tells whether one failed. -/
theorem execute_convertEach (hline : parse line = .ok (.convert command))
    (hseveral : 2 ≤ command.inputs.length) (houtput : command.output = some directory)
    (hload : (loadTargets environment.reader command.targets).run.run environment.naming { disk }
      = (.ok lookup, { disk }))
    (hclash : clash? [] command.inputs = none)
    (hmade : disk.makeDirectories directory = (.ok (), made)) :
    let each := (convertEach command environment.schedule lookup directory command.inputs).run
      environment.naming { disk := made }
    (execute environment line disk).session.disk = each.2.disk ∧
      ((execute environment line disk).exitCode = 0 ↔ failures command.inputs each.1 = []) := by
  obtain ⟨result, last, hmany, hlast, hresult⟩ :=
    run_convertMany environment lookup environment.naming houtput hclash hmade
  have hrun : (command.run environment).run.run environment.naming { disk } = (result, last) := by
    rw [run_of_several hseveral, Action.run_bind_of_ok hload, hmany]
  cases result with
  | ok u =>
    rw [execute_of_ok hline hrun]
    exact ⟨hlast, by simpa using hresult.mp rfl⟩
  | error error =>
    rw [execute_of_error hline hrun]
    refine ⟨hlast, ?_⟩
    simpa using hresult

/-- Inputs without a clash that are converted without disturbance are kept apart. -/
theorem keepsApart_of_undisturbed (hline : parse line = .ok (.convert command))
    (hseveral : 2 ≤ command.inputs.length) (houtput : command.output = some directory)
    (hnaming : environment.naming.Alphanumeric)
    (hload : (loadTargets environment.reader command.targets).run.run environment.naming { disk }
      = (.ok lookup, { disk }))
    (hstems : (command.inputs.map stem).Nodup)
    (hmade : disk.makeDirectories directory = (.ok (), made))
    (h : (convertEach command environment.schedule lookup directory command.inputs).Undisturbed
      environment.naming bytes { disk := made }) :
    KeepsApart environment command lookup directory bytes disk made
      (execute environment line disk) := by
  have hattach := attachRaw_of_parse hline
  have hclash : clash? [] command.inputs = none := (clash?_eq_none_iff (by simp)).mpr hstems
  obtain ⟨hresults, hreceived⟩ := run_convertEach hnaming hstems h
  obtain ⟨hdisk, hexit⟩ := execute_convertEach hline hseveral houtput hload hclash hmade
  rw [← hdisk] at hreceived
  have hextends : disk.Extends (command.prepareFor bytes command.inputs made) := by
    have hmade' := makeDirectories_extends disk directory
    rw [hmade] at hmade'
    exact hmade'.trans (prepareFor_extends command.inputs made)
  constructor
  case names => exact nodup_names directory bytes hstems
  case entries => exact fun _ hinput _ hreport => readFile_entries hreceived hinput hreport
  case attachments =>
    exact fun _ hinput _ _ hreport hfolder _ hentry =>
      readFile_attachment hreceived hattach hinput hreport hfolder hentry
  case nothingElse => exact fun _ hfree => item?_of_received hextends hreceived hfree
  case rejected =>
    exact fun _ _ hreport => ⟨filesOf_of_error hreport, fun _ _ _ hread =>
      congrArg Prod.snd (run_convertOne_of_error hread hreport)⟩
  case anyOrder =>
    exact fun _ _ _ hperm hnaming' hother =>
      item?_of_perm hreceived hperm hnaming' hstems hother
  case alone =>
    exact fun _ _ _ hreport _ _ _ hnaming' hload' =>
      ⟨fun _ => run_alone_file hnaming' hreport hload', run_alone_output hnaming' hreport hload'⟩
  case exit => rw [hexit, hresults, failures_eq_nil_iff]

/-- Inputs of which two share a stem are not converted, and the message names them. -/
theorem execute_of_clash {earlier input : String} (hline : parse line = .ok (.convert command))
    (hseveral : 2 ≤ command.inputs.length) (houtput : command.output = some directory)
    (hload : (loadTargets environment.reader command.targets).run.run environment.naming { disk }
      = (.ok lookup, { disk }))
    (hclash : clash? [] command.inputs = some (earlier, input)) :
    execute environment line disk = ⟨1, { disk, errors := "Error: " ++ earlier ++ " and " ++ input
      ++ " would both be written as " ++ stem input ++ ".json\n" }⟩ := by
  have hrun : (command.run environment).run.run environment.naming { disk }
      = (.error ⟨earlier ++ " and " ++ input ++ " would both be written as "
          ++ outputName input, []⟩, { disk }) := by
    rw [run_of_several hseveral, Action.run_bind_of_ok hload]
    unfold convertMany
    simp only [houtput, hclash]
    exact Action.run_fail _
  rw [execute_of_error hline hrun]
  simp [CommandError.report, outputName, String.append_assoc]

/-- Converting several inputs into a directory never mixes them. Inputs of which two share a stem
are not converted: the message names the first repeat and the input that it repeats, and nothing is
written. Nor is anything written when the target tree does not load. Otherwise the inputs are kept
apart in the sense of `KeepsApart`, provided that the operations on files succeed, whichever
conversion moves next and however scratch files are named. -/
theorem several_inputs_kept_apart (hline : parse line = .ok (.convert command))
    (hseveral : 2 ≤ command.inputs.length) (houtput : command.output = some directory)
    (hnaming : environment.naming.Alphanumeric) :
    (clash? [] command.inputs = none ↔ (command.inputs.map stem).Nodup) ∧
    (∀ earlier input, clash? [] command.inputs = some (earlier, input) →
      ∃ first between rest, command.inputs = first ++ earlier :: between ++ input :: rest ∧
        stem earlier = stem input ∧ ((first ++ earlier :: between).map stem).Nodup) ∧
    (∀ error last,
      (loadTargets environment.reader command.targets).run.run environment.naming { disk }
        = (.error error, last) →
      execute environment line disk = ⟨1, { disk, errors := error.report }⟩) ∧
    ∀ lookup last,
      (loadTargets environment.reader command.targets).run.run environment.naming { disk }
        = (.ok lookup, last) →
      (∀ earlier input, clash? [] command.inputs = some (earlier, input) →
        execute environment line disk = ⟨1, { disk, errors := "Error: " ++ earlier ++ " and "
          ++ input ++ " would both be written as " ++ stem input ++ ".json\n" }⟩) ∧
      (clash? [] command.inputs = none → ∀ made bytes,
        disk.makeDirectories directory = (.ok (), made) →
        (convertEach command environment.schedule lookup directory command.inputs).Undisturbed
          environment.naming bytes { disk := made } →
        KeepsApart environment command lookup directory bytes disk made
          (execute environment line disk)) := by
  have hnone : clash? [] command.inputs = none ↔ (command.inputs.map stem).Nodup :=
    clash?_eq_none_iff (by simp)
  refine ⟨hnone, fun earlier input => of_clash?_eq_some (by simp), ?_, ?_⟩
  · intro error last hload
    have hlast := run_loadTargets environment.reader environment.naming command.targets { disk }
    rw [hload] at hlast
    subst hlast
    have hrun : (command.run environment).run.run environment.naming { disk }
        = (.error error, { disk }) := by
      rw [run_of_several hseveral, Action.run_bind_of_error hload]
    rw [execute_of_error hline hrun, String.empty_append]
  · intro lookup last hload
    have hlast := run_loadTargets environment.reader environment.naming command.targets { disk }
    rw [hload] at hlast
    subst hlast
    constructor
    · exact fun earlier input => execute_of_clash hline hseveral houtput hload
    · intro hclash made bytes hmade h
      exact keepsApart_of_undisturbed hline hseveral houtput hnaming hload (hnone.mp hclash) hmade h

/-- Three responses, one of them empty. The name of the last is one under which an attachment of the
first would be kept. -/
def batchDisk : Disk :=
  ⟨[(["a.bin"], .file mixedResponse), (["b.bin"], .file []),
    (["a-slid-0007.bin"], .file mixedResponse)]⟩

/-- The conversion of these responses, with entries and attachments in one directory. -/
def batchCommand : ConvertCommand where
  inputs := ["a.bin", "b.bin", "a-slid-0007.bin"]
  output := some "out"
  targets := none
  attachments := some "out"
  options := { attachRaw := true }

/-- Its command line. -/
def batchLine : List String :=
  ["convert", "a.bin", "b.bin", "a-slid-0007.bin", "-o", "out", "--attachments-dir", "out"]

/-- What is in a file, if it can be read. -/
def batchBytes (input : String) : Bytes :=
  match batchDisk.readFile input with
  | .ok content => content
  | .error _ => []

/-- Conversions that take turns. -/
def inTurns : Environment := { Environment.plain with schedule := fun _ moment => moment % 2 = 0 }

/-- The empty response is rejected; the files of the others are kept apart. -/
theorem several_inputs_kept_apart_sample :
    inTurns.naming.Alphanumeric ∧
      KeepsApart inTurns batchCommand .none "out" batchBytes batchDisk
        (batchDisk.makeDirectories "out").2 (execute inTurns batchLine batchDisk) ∧
      (batchCommand.inputs.flatMap (batchCommand.filesOf "out" batchBytes)).map (·.name)
        = ["a-slid-0007.bin", "a.json", "a-slid-0007-slid-0007.bin", "a-slid-0007.json"] ∧
      (execute inTurns batchLine batchDisk).exitCode = 1 := by
  have hline : parse batchLine = .ok (.convert batchCommand) := by decide +kernel
  have hmade : batchDisk.makeDirectories "out"
      = (.ok (), (batchDisk.makeDirectories "out").2) := by decide +kernel
  have hclash : clash? [] batchCommand.inputs = none := by decide +kernel
  have hnaming : inTurns.naming.Alphanumeric := ScratchNaming.serial_alphanumeric
  have hundisturbed : (convertEach batchCommand inTurns.schedule .none "out"
      batchCommand.inputs).Undisturbed inTurns.naming batchBytes
        { disk := (batchDisk.makeDirectories "out").2 } := by decide +kernel
  obtain ⟨-, -, -, hloaded⟩ := several_inputs_kept_apart hline (by decide) rfl hnaming
  exact ⟨hnaming, (hloaded .none _ rfl).2 hclash _ _ hmade hundisturbed, by decide +kernel,
    by decide +kernel⟩

end Command

end FirstFailure
