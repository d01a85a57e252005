import FirstFailure.Command.Run
import FirstFailure.Proofs.Command.Session
import FirstFailure.Proofs.Target.Audit
import FirstFailure.Proofs.Target.Markup
/-!
# What a successful validation promises

A validation succeeds exactly on a readable text without problems. Such a text need not be a
document: the audit is left out when the text does not have the shape of one. Where it is one, its
tree can be loaded and searched by path. All this is so for every reader of YAML. For one that reads
plain YAML by its nodes, a plain text without problems is a document where it is well spelled.
-/

namespace FirstFailure

/-! ## The exit code -/

namespace ValidateCommand

variable {environment : Environment} {naming : ScratchNaming} {command : ValidateCommand}
  {session : Session} {text : String}

theorem run_of_valid (htext : session.disk.readText command.input = .ok text)
    (hvalid : TargetDocument.problems environment.reader text = []) :
    ∃ after, (command.run environment).run.run naming session = (.ok (), after) := by
  unfold run
  rw [Action.run_bind_of_ok (Action.run_readText_of_ok _ htext)]
  simp only [hvalid, List.isEmpty_nil, if_true]
  split
  · exact ⟨session, Action.run_pure ()⟩
  · exact ⟨_, Action.run_print _⟩

/-- However much is said about the problems, the failure comes at the end. -/
theorem run_of_problems (htext : session.disk.readText command.input = .ok text)
    (hproblems : TargetDocument.problems environment.reader text ≠ []) :
    ∃ error after, (command.run environment).run.run naming session = (.error error, after) := by
  have hfail : ∀ (said : Bool) (message : String) (error : CommandError),
      Action.Fails (if said then (do Action.print message; Action.fail error)
        else (Action.fail error : Action Unit)) := by
    intro said message error
    cases said with
    | true => exact Action.fails_bind fun _ => Action.fails_fail error
    | false => exact Action.fails_fail error
  unfold run
  rw [Action.run_bind_of_ok (Action.run_readText_of_ok _ htext)]
  simp only [List.isEmpty_iff, hproblems, if_false]
  split
  · exact Action.fails_bind (fun _ => hfail _ _ _) naming session
  · exact hfail _ _ _ naming session

theorem run_of_unreadable {error : DiskError}
    (htext : session.disk.readText command.input = .error error) :
    ∃ error after, (command.run environment).run.run naming session = (.error error, after) :=
  ⟨_, session, Action.run_bind_of_error (Action.run_readText_of_error _ htext)⟩

end ValidateCommand

namespace Command

variable {environment : Environment} {line : List String} {disk : Disk}

theorem exitCode_of_ok {command : Command} {after : Session} (hline : parse line = .ok command)
    (hrun : (command.run environment).run.run environment.naming { disk } = (.ok (), after)) :
    (execute environment line disk).exitCode = 0 := by
  unfold execute
  simp only [hline, hrun]

theorem exitCode_of_error {command : Command} {error : CommandError} {after : Session}
    (hline : parse line = .ok command)
    (hrun : (command.run environment).run.run environment.naming { disk } = (.error error, after)) :
    (execute environment line disk).exitCode = 1 := by
  unfold execute
  simp only [hline, hrun]

/-- A validation ends with success exactly when its file holds a text without problems. -/
theorem validate_exitCode_iff {command : ValidateCommand}
    (hline : parse line = .ok (.validate command)) :
    (execute environment line disk).exitCode = 0 ↔
      ∃ text, disk.readText command.input = .ok text ∧
        TargetDocument.problems environment.reader text = [] := by
  cases htext : disk.readText command.input with
  | error error =>
    obtain ⟨_, _, hrun⟩ : ∃ error after,
        (command.run environment).run.run environment.naming { disk } = (.error error, after) :=
      ValidateCommand.run_of_unreadable htext
    rw [exitCode_of_error hline hrun]
    simp
  | ok text =>
    by_cases hproblems : TargetDocument.problems environment.reader text = []
    · obtain ⟨_, hrun⟩ : ∃ after,
          (command.run environment).run.run environment.naming { disk } = (.ok (), after) :=
        ValidateCommand.run_of_valid htext hproblems
      rw [exitCode_of_ok hline hrun]
      simp [hproblems]
    · obtain ⟨_, _, hrun⟩ : ∃ error after,
          (command.run environment).run.run environment.naming { disk } = (.error error, after) :=
        ValidateCommand.run_of_problems htext hproblems
      rw [exitCode_of_error hline hrun]
      simp [hproblems]

end Command

/-! ## Reading plain YAML -/

namespace YamlReader

/-- A plain text is read as its node says; what other texts are read as is left open. -/
structure ReadsPlain (reader : YamlReader) : Prop where
  value : ∀ text node, Yaml.parse text = .ok node → (reader.value text).toOption = node.toJson?
  document : ∀ text node, Yaml.parse text = .ok node →
    (reader.document text).toOption = TargetDocument.ofYaml? node

theorem toOption_readNode {α : Type} {read : Yaml → Option α} {text : String} {node : Yaml}
    (h : Yaml.parse text = .ok node) : (readNode read text).toOption = read node := by
  simp only [readNode, h]
  cases read node with
  | some result => rfl
  | none => rfl

theorem readsPlain_plain : plain.ReadsPlain :=
  ⟨fun _ _ h => toOption_readNode h, fun _ _ h => toOption_readNode h⟩

end YamlReader

/-! ## Texts without problems -/

namespace TargetDocument

variable {reader : YamlReader} {text : String}

/-- What a text without problems is: its value is one of the schema, and if it spells a document
then that document has no defects. -/
theorem exists_of_problems_eq_nil (h : problems reader text = []) :
    (∃ value, reader.value text = .ok value ∧ schemaViolations value = []) ∧
    ∀ document, reader.document text = .ok document → document.audit = [] := by
  rw [problems, List.append_eq_nil_iff] at h
  obtain ⟨hschema, haudit⟩ := h
  constructor
  · unfold checkSchema at hschema
    split at hschema
    next => simp [SchemaResult.lines] at hschema
    next value hvalue => exact ⟨value, hvalue, List.map_eq_nil_iff.mp hschema⟩
  · intro document hdocument
    unfold auditLines at haudit
    rw [hdocument] at haudit
    exact List.map_eq_nil_iff.mp haudit

/-- A plain text without problems is a document exactly when it is well spelled. -/
theorem exists_document_iff (hreader : reader.ReadsPlain) {node : Yaml}
    (hnode : Yaml.parse text = .ok node) (h : problems reader text = []) :
    (∃ document, reader.document text = .ok document) ↔ node.WellSpelled := by
  obtain ⟨⟨value, hvalue, haccepts⟩, -⟩ := exists_of_problems_eq_nil h
  have hjson : node.toJson? = some value :=
    (hreader.value text node hnode).symm.trans (Outcome.toOption_eq_some_iff.mpr hvalue)
  rw [← exists_ofYaml?_iff hjson haccepts, ← hreader.document text node hnode]
  simp only [Outcome.toOption_eq_some_iff]

end TargetDocument

/-! ## Loading a validated text -/

namespace ConvertCommand

variable {reader : YamlReader} {naming : ScratchNaming} {session : Session} {path text : String}

theorem run_loadTargets_ok {tree : TargetTree} (htext : session.disk.readText path = .ok text)
    (htree : TargetTree.parse reader text = .ok tree) :
    (loadTargets reader (some path)).run.run naming session = (.ok tree.toLookup, session) := by
  unfold loadTargets
  rw [Action.run_bind_of_ok (Action.run_readText_of_ok _ htext), htree,
    Action.run_bind_of_ok (Action.run_get_ok _ _ tree), Action.run_pure]

theorem run_loadTargets_error {error : TargetTree.LoadError}
    (htext : session.disk.readText path = .ok text)
    (htree : TargetTree.parse reader text = .error error) :
    (loadTargets reader (some path)).run.run naming session
      = (.error ⟨"parsing target tree " ++ path, error.messages⟩, session) := by
  unfold loadTargets
  rw [Action.run_bind_of_ok (Action.run_readText_of_ok _ htext), htree,
    Action.run_bind_of_error (Action.run_get_error _ _ error)]

/-- What becomes of a text that a successful validation has passed. Where the reader makes a
document of it, it loads, and in its tree the search from the root finds every target that has a
path by that path. Where it does not, validation has not said so, and no load succeeds. Of plain
texts the reader makes documents where they are well spelled. -/
theorem load_of_validated {environment : Environment} {line : List String} {disk : Disk}
    {command : ValidateCommand} (hline : Command.parse line = .ok (.validate command))
    (htext : disk.readText command.input = .ok text)
    (hexit : (Command.execute environment line disk).exitCode = 0) :
    (∀ document, environment.reader.document text = .ok document →
      ∃ tree, TargetTree.parse environment.reader text = .ok tree ∧
        (∀ naming session path, session.disk.readText path = .ok text →
          (loadTargets environment.reader (some path)).run.run naming session
            = (.ok tree.toLookup, session)) ∧
        ∀ handle path, (tree.node? handle).bind (·.physicalPath) = some path →
          tree.findByPath 0 path = some handle) ∧
    (∀ reason, environment.reader.document text = .error reason →
      TargetTree.parse environment.reader text = .error (.document reason) ∧
        ∀ naming session path, session.disk.readText path = .ok text →
          (loadTargets environment.reader (some path)).run.run naming session
            = (.error ⟨"parsing target tree " ++ path,
              ["YAML deserialization error: " ++ reason, reason]⟩, session)) ∧
    (environment.reader.ReadsPlain → ∀ node, Yaml.parse text = .ok node →
      ((∃ document, environment.reader.document text = .ok document) ↔ node.WellSpelled)) := by
  have hvalid : TargetDocument.problems environment.reader text = [] := by
    obtain ⟨text', htext', hvalid⟩ := (Command.validate_exitCode_iff hline).mp hexit
    cases htext.symm.trans htext'
    exact hvalid
  refine ⟨?_, ?_, ?_⟩
  · intro document hdocument
    have haudit := (TargetDocument.exists_of_problems_eq_nil hvalid).2 document hdocument
    obtain ⟨tree, htree, hfind⟩ := TargetDocument.exists_tree_of_audit haudit
    have hparse : TargetTree.parse environment.reader text = .ok tree := by
      rw [TargetTree.parse, hdocument]
      show (TargetTree.ofDocument document).mapError _ = _
      rw [htree]
      rfl
    exact ⟨tree, hparse, fun _ _ _ hread => run_loadTargets_ok hread hparse, hfind⟩
  · intro reason hdocument
    have hparse : TargetTree.parse environment.reader text = .error (.document reason) := by
      rw [TargetTree.parse, hdocument]
      rfl
    exact ⟨hparse, fun _ _ _ hread => run_loadTargets_error hread hparse⟩
  · exact fun hreader node hnode => TargetDocument.exists_document_iff hreader hnode hvalid

/-- A disk with a text in the file `tree.yml`. -/
def diskWith (text : String) : Disk := ⟨[(["tree.yml"], .file text.toUTF8.toList)]⟩

/-- Two targets with paths, one of them below the other. -/
def sampleTargets : String :=
  "targets:\n- name: a\n  phys_bin_path: ab\n  mru_id: 5\n  children:\n"
    ++ "  - name: b\n    phys_bin_path: ab01\n"

theorem load_of_validated_sample :
    (Command.parse ["validate", "tree.yml"] = .ok (.validate ⟨"tree.yml", false, false⟩) ∧
      (diskWith sampleTargets).readText "tree.yml" = .ok sampleTargets ∧
      (Command.execute .plain ["validate", "tree.yml"] (diskWith sampleTargets)).exitCode = 0 ∧
      YamlReader.plain.ReadsPlain) ∧
    (∃ tree, TargetTree.parse .plain sampleTargets = .ok tree ∧
      ∀ handle path, (tree.node? handle).bind (·.physicalPath) = some path →
        tree.findByPath 0 path = some handle) ∧
    ∃ node, Yaml.parse sampleTargets = .ok node ∧ node.WellSpelled := by
  have hline : Command.parse ["validate", "tree.yml"]
      = .ok (.validate ⟨"tree.yml", false, false⟩) := by decide +kernel
  have htext : (diskWith sampleTargets).readText "tree.yml" = .ok sampleTargets := by
    decide +kernel
  have hexit : (Command.execute .plain ["validate", "tree.yml"]
      (diskWith sampleTargets)).exitCode = 0 := by decide +kernel
  have hread : (YamlReader.plain.document sampleTargets).toOption.isSome = true := by
    decide +kernel
  obtain ⟨document, hdocument⟩ := Option.isSome_iff_exists.mp hread
  replace hdocument := Outcome.toOption_eq_some_iff.mp hdocument
  have hplain : (Yaml.parse sampleTargets).toOption.isSome = true := by decide +kernel
  obtain ⟨node, hnode⟩ := Option.isSome_iff_exists.mp hplain
  replace hnode := Outcome.toOption_eq_some_iff.mp hnode
  obtain ⟨hloads, -, hspelled⟩ := load_of_validated hline htext hexit
  obtain ⟨tree, htree, -, hfind⟩ := hloads document hdocument
  exact ⟨⟨hline, htext, hexit, YamlReader.readsPlain_plain⟩, ⟨tree, htree, hfind⟩, node, hnode,
    (hspelled YamlReader.readsPlain_plain node hnode).mp ⟨document, hdocument⟩⟩

/-- Two targets of one name and one path, and a unit that is spelled with a fraction. -/
def misspelledTargets : String :=
  "targets:\n- name: a\n  phys_bin_path: ab\n  mru_id: 5.0\n"
    ++ "- name: a\n  phys_bin_path: ab\n"

/-- A validation succeeds on these targets, although they do not load and although the audit, had it
seen them, would have found the same name and the same path twice. -/
theorem validated_without_load :
    Command.parse ["validate", "tree.yml"] = .ok (.validate ⟨"tree.yml", false, false⟩) ∧
    (diskWith misspelledTargets).readText "tree.yml" = .ok misspelledTargets ∧
    (Command.execute .plain ["validate", "tree.yml"] (diskWith misspelledTargets)).exitCode = 0 ∧
    ¬∃ tree, TargetTree.parse .plain misspelledTargets = .ok tree := by
  refine ⟨by decide +kernel, by decide +kernel, by decide +kernel, ?_⟩
  have hparse : TargetTree.parse .plain misspelledTargets = .error (.document "") := by
    decide +kernel
  rintro ⟨tree, htree⟩
  rw [hparse] at htree
  cases htree

end ConvertCommand

end FirstFailure
