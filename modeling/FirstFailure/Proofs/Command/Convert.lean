import FirstFailure.Proofs.Command.Validate
import FirstFailure.Proofs.Report.Payloads
/-!
# Converting without definitions

A conversion decodes without definitions. Its entries keep the payloads of all packages and call
out nothing, and it does the same with any target tree that loads as with none.
-/

namespace FirstFailure

namespace ConvertCommand

variable (command : ConvertCommand) {environment : Environment} {targets : Option String}

theorem convertOne_lookup (lookup : TargetLookup) (output : Option String) (input : String) :
    convertOne { command with targets } lookup output input
      = convertOne command .none output input := by
  simp only [convertOne, Report.ofResponse_raw_lookup _ lookup]

theorem convertEach_lookup (schedule : Schedule) (lookup : TargetLookup) (directory : String)
    (inputs : List String) :
    convertEach { command with targets } schedule lookup directory inputs
      = convertEach command schedule .none directory inputs := by
  simp only [convertEach, convertOne_lookup command lookup]

theorem convertMany_lookup (lookup : TargetLookup) :
    convertMany environment { command with targets } lookup
      = convertMany environment command .none := by
  simp only [convertMany, convertEach_lookup command _ lookup]

/-- A tree that loads is not asked. -/
theorem run_of_targets {naming : ScratchNaming} {session : Session} {lookup : TargetLookup}
    (hload : (loadTargets environment.reader targets).run.run naming session
      = (.ok lookup, session)) :
    (run environment { command with targets }).run.run naming session
      = (run environment { command with targets := none }).run.run naming session := by
  have hone : ∀ output input, convertOne { command with targets } lookup output input
      = convertOne { command with targets := none } .none output input :=
    fun output input => (convertOne_lookup command lookup output input).trans
      (convertOne_lookup command .none output input).symm
  have hmany : convertMany environment { command with targets } lookup
      = convertMany environment { command with targets := none } .none :=
    (convertMany_lookup command lookup).trans (convertMany_lookup command .none).symm
  have hnone : (loadTargets environment.reader none).run.run naming session
      = (.ok .none, session) := Action.run_pure _
  unfold run
  rw [Action.run_bind_of_ok hload, Action.run_bind_of_ok hnone]
  simp only [hone, hmany]

end ConvertCommand

namespace Command

variable {environment : Environment} {command : ConvertCommand} {line other : List String}
  {disk : Disk}

/-- A command line with a target tree that loads and one without do the same. -/
theorem execute_of_targets {path text : String} {tree : TargetTree}
    (hline : parse line = .ok (.convert { command with targets := some path }))
    (hother : parse other = .ok (.convert { command with targets := none }))
    (htext : disk.readText path = .ok text)
    (htree : TargetTree.parse environment.reader text = .ok tree) :
    execute environment line disk = execute environment other disk := by
  have hload : (ConvertCommand.loadTargets environment.reader (some path)).run.run
      environment.naming { disk } = (.ok tree.toLookup, { disk }) :=
    ConvertCommand.run_loadTargets_ok htext htree
  have hrun := ConvertCommand.run_of_targets command hload
  simp only [execute, hline, hother, run, hrun]

end Command

/-- Without definitions an entry keeps all payloads. Its user data is made of the pairs of its
packages, each of which shows return code and data, and so entries of equal user data have equal
payloads. Nothing is called out, and whichever tree is given makes no difference to the entries nor
to the conversion of responses. -/
theorem raw_entries_keep_payloads :
    (∀ options lookup otherLookup logId packages others,
      (Entry.ofGroup .raw lookup options logId packages).userData
          = (Entry.ofGroup .raw otherLookup options logId others).userData →
        Package.payloads packages = Package.payloads others) ∧
    (∀ options lookup logId packages,
      (Entry.ofGroup .raw lookup options logId packages).userData
          = (Package.withFailure packages).flatMap (·.rawPairs options)
            ++ [(positionKey, positionValue options.chipPosition)] ∧
        (Entry.ofGroup .raw lookup options logId packages).callouts = []) ∧
    (∀ options lookup (package : Package), package.returnCode ≠ platformDataCode →
      package.contribution? .raw lookup options = some ⟨package.rawPairs options, []⟩ ∧
        package.Shows (package.rawPairs options)) ∧
    (∀ options lookup otherLookup (groups : Groups),
      groups.toEntries .raw lookup options = groups.toEntries .raw otherLookup options) ∧
    ∀ environment line other disk (command : ConvertCommand) path text tree,
      Command.parse line = .ok (.convert { command with targets := some path }) →
      Command.parse other = .ok (.convert { command with targets := none }) →
      disk.readText path = .ok text → TargetTree.parse environment.reader text = .ok tree →
        Command.execute environment line disk = Command.execute environment other disk := by
  refine ⟨?_, ?_, ?_, ?_, ?_⟩
  · intro options lookup otherLookup logId packages others h
    have hread := congrArg (fun pairs => (UserData.readPayloads pairs).2) h
    simpa only [Entry.readPayloads_ofGroup_raw] using hread
  · intro options lookup logId packages
    exact ⟨Entry.ofGroup_raw_userData logId packages, Entry.ofGroup_raw_callouts logId packages⟩
  · intro options lookup package h
    exact ⟨Package.contribution?_raw h, Package.shows_rawPairs options package⟩
  · intro options lookup otherLookup groups
    rw [Groups.toEntries_raw_lookup groups lookup, Groups.toEntries_raw_lookup groups otherLookup]
  · intro environment line other disk command path text tree hline hother htext htree
    exact Command.execute_of_targets hline hother htext htree

/-- A response with a package that has data, one that refers to platform data and one without data,
all of one log id. -/
def mixedResponse : Bytes :=
  [0xC0, 0xDE, 0xA8, 1] ++ [0, 0, 0, 0]
    ++ [0xFB, 0xAD, 0, 6, 0, 1, 0xA1, 2, 0, 7, 0x20, 5, 0, 0, 0, 4, 1, 2, 3, 4, 5, 6, 7, 8]
    ++ [0xFB, 0xAD, 0, 5, 0, 2, 0xA1, 2, 0, 7, 0x20, 5, 2, 0, 0, 1, 9, 9, 9, 9]
    ++ [0xFB, 0xAD, 0, 4, 0, 3, 0xA1, 2, 0, 7, 0x20, 5, 0, 0, 0, 4]
    ++ [0, 0, 0, 0x12]

/-- A disk with that response and a target document. -/
def conversionDisk : Disk :=
  ⟨[(["a.bin"], .file mixedResponse),
    (["tree.yml"], .file ConvertCommand.sampleTargets.toUTF8.toList)]⟩

/-- The command line without a target tree. -/
def conversionLine : List String := ["convert", "a.bin", "--attach-raw"]

/-- The entry of the response, and of its packages in which the one with platform data is left out,
show two payloads of one return code. The conversion prints the same with the target tree. -/
theorem raw_entries_keep_payloads_mixed :
    (Entry.ofGroup .raw .none {} 7 (packagesIn mixedResponse)).userData.map (·.1)
        = ["HWP_RC", "HWP_RC_DESC", "HWP_FFDC_CHIP_POS", "HWP_FFDC_CHIP_TYPE", "HWP_FFDC_RAW_DATA",
          "HWP_RC", "HWP_RC_DESC", "HWP_FFDC_CHIP_POS", "HWP_FFDC_CHIP_TYPE", "SRC6"] ∧
      Package.payloads (packagesIn mixedResponse)
        = Package.payloads (Package.withFailure (packagesIn mixedResponse)) ∧
      (Command.execute .plain conversionLine conversionDisk).exitCode = 0 ∧
      Command.execute .plain (conversionLine ++ ["--targets", "tree.yml"]) conversionDisk
        = Command.execute .plain conversionLine conversionDisk := by
  have hdata : (Entry.ofGroup .raw .none {} 7 (packagesIn mixedResponse)).userData
      = (Entry.ofGroup .raw .none {} 7
          (Package.withFailure (packagesIn mixedResponse))).userData := by
    decide +kernel
  have hcommand : Command.parse conversionLine
      = .ok (.convert ⟨["a.bin"], none, none, none, { attachRaw := true }⟩) := by decide +kernel
  have htargets : Command.parse (conversionLine ++ ["--targets", "tree.yml"])
      = .ok (.convert ⟨["a.bin"], none, some "tree.yml", none, { attachRaw := true }⟩) := by
    decide +kernel
  have htext : conversionDisk.readText "tree.yml" = .ok ConvertCommand.sampleTargets := by
    decide +kernel
  have hparse : (TargetTree.parse .plain ConvertCommand.sampleTargets).toOption.isSome = true := by
    decide +kernel
  obtain ⟨tree, htree⟩ := Option.isSome_iff_exists.mp hparse
  have hload := Outcome.toOption_eq_some_iff.mp htree
  obtain ⟨hpayloads, -, -, -, hconvert⟩ := raw_entries_keep_payloads
  exact ⟨by decide +kernel, hpayloads _ _ _ _ _ _ hdata, by decide +kernel,
    hconvert _ _ _ _ ⟨["a.bin"], none, none, none, { attachRaw := true }⟩ _ _ _ htargets hcommand
      htext hload⟩

end FirstFailure
