import FirstFailure.Diagnostic.Entry
import FirstFailure.Procedure.Failure
import FirstFailure.Proofs.Json.Reading
import FirstFailure.Proofs.Target.Preorder
/-!
# Documents lose nothing

Entries, failure data and target documents are read back from their own documents as they were.
Callouts carry no mark of their kind. They keep it because each kind needs a field that a later one
does not write: only parts have an inventory path, and only targets have a guard type among the two
others. So a kind that is tried before the right one refuses the document.
-/

namespace FirstFailure

open Json

/-! ## Callouts -/

theorem Priority.undoes : Undoes Priority.ofJson? Priority.toJson :=
  undoes_constant fun priority => by cases priority <;> decide

theorem HardwareCallout.undoes : Undoes HardwareCallout.ofJson? HardwareCallout.toJson := by
  intro callout
  have hfields : callout.toJson.fields? ["InventoryPath", "Deconfigured", "Guarded", "Priority"]
      = some [some (.str callout.inventoryPath), some (.bool callout.deconfigured),
        some (.bool callout.guarded), some callout.priority.toJson] := rfl
  rw [ofJson?, hfields]
  simp only [required_some undoes_string, required_some undoes_bool,
    required_some Priority.undoes, Option.bind_eq_bind, Option.bind_some, Option.pure_def]

theorem ReplaceableUnit.undoes : Undoes ReplaceableUnit.ofJson? ReplaceableUnit.toJson := by
  intro unit
  have hfields : unit.toJson.fields? ["ID", "Priority"]
      = some [some (.ofNat unit.id.toNat), some unit.priority.toJson] := rfl
  rw [ofJson?, hfields]
  simp only [required_some undoes_uint32, required_some Priority.undoes, Option.bind_eq_bind,
    Option.bind_some, Option.pure_def]

theorem TargetCallout.undoes : Undoes TargetCallout.ofJson? TargetCallout.toJson := by
  intro callout
  obtain ⟨priority, deconfigured, guarded, guardType, entityPath, units⟩ := callout
  have hunits : ∃ field, orDefault [] (list? ReplaceableUnit.ofJson?) field = some units ∧
      (TargetCallout.mk priority deconfigured guarded guardType entityPath units).toJson.fields?
        ["Priority", "Deconfigured", "Guarded", "GuardType", "EntityPath", "MRUs"]
      = some [some priority.toJson, some (.bool deconfigured), some (.bool guarded),
        some (.str guardType), some (.ofBytes entityPath), field] := by
    cases units with
    | nil => exact ⟨none, rfl, rfl⟩
    | cons first rest =>
      exact ⟨_, orDefault_some (undoes_list ReplaceableUnit.undoes) [] (first :: rest), rfl⟩
  obtain ⟨field, hfield, hfields⟩ := hunits
  rw [ofJson?, hfields]
  simp only [required_some Priority.undoes, required_some undoes_bool,
    required_some undoes_string, required_some undoes_bytes, hfield, Option.bind_eq_bind,
    Option.bind_some, Option.pure_def]

theorem ProcedureCallout.undoes : Undoes ProcedureCallout.ofJson? ProcedureCallout.toJson := by
  intro callout
  have hfields : callout.toJson.fields? ["Procedure", "Priority"]
      = some [some (.str callout.procedure), some callout.priority.toJson] := rfl
  rw [ofJson?, hfields]
  simp only [required_some undoes_string, required_some Priority.undoes, Option.bind_eq_bind,
    Option.bind_some, Option.pure_def]

/-- A document without an inventory path is that of no part. -/
theorem HardwareCallout.ofJson?_eq_none {members : List (String × Json)}
    (h : member? "InventoryPath" members = none) :
    HardwareCallout.ofJson? (.obj members) = none := by
  simp [HardwareCallout.ofJson?, fields?, h, required_none]

/-- A document without a guard type is that of no target. -/
theorem TargetCallout.ofJson?_eq_none {members : List (String × Json)}
    (h : member? "GuardType" members = none) : TargetCallout.ofJson? (.obj members) = none := by
  simp [TargetCallout.ofJson?, fields?, h, required_none]

theorem HardwareCallout.ofJson?_target (callout : TargetCallout) :
    HardwareCallout.ofJson? callout.toJson = none := by
  apply HardwareCallout.ofJson?_eq_none
  cases hunits : callout.units.isEmpty <;> simp [member?]

theorem HardwareCallout.ofJson?_procedure (callout : ProcedureCallout) :
    HardwareCallout.ofJson? callout.toJson = none :=
  HardwareCallout.ofJson?_eq_none rfl

theorem TargetCallout.ofJson?_procedure (callout : ProcedureCallout) :
    TargetCallout.ofJson? callout.toJson = none :=
  TargetCallout.ofJson?_eq_none rfl

theorem Callout.undoes : Undoes Callout.ofJson? Callout.toJson := by
  intro callout
  cases callout with
  | hardware part => simp [toJson, ofJson?, HardwareCallout.undoes part]
  | target target =>
    simp [toJson, ofJson?, HardwareCallout.ofJson?_target, TargetCallout.undoes target]
  | procedure procedure =>
    simp [toJson, ofJson?, HardwareCallout.ofJson?_procedure, TargetCallout.ofJson?_procedure,
      ProcedureCallout.undoes procedure]

/-! ## Entries -/

theorem Severity.undoes :
    Undoes (constant? Severity.all Severity.name) (fun severity => .str severity.name) :=
  undoes_constant fun severity => by cases severity <;> decide

theorem ofNat_ne_null (n : Nat) : Json.ofNat n ≠ .null := nofun

theorem ofBytes_ne_null (bytes : Bytes) : Json.ofBytes bytes ≠ .null := nofun

theorem Entry.undoes : Undoes Entry.ofJson? Entry.toJson := by
  intro entry
  obtain ⟨message, severity, logId, userData, callouts, attachment⟩ := entry
  have hseverity := required_some Severity.undoes severity
  have hlogId := optional_map undoes_uint16 (fun n => ofNat_ne_null n.toNat) logId
  have huserData := required_some (undoes_list undoes_pair) userData
  have hcallouts := required_some (undoes_list Callout.undoes) callouts
  have hattachment := optional_map undoes_bytes ofBytes_ne_null attachment
  have hfields : (Entry.mk message severity logId userData callouts attachment).toJson.fields?
      ["message", "severity", "log_id", "user_data", "callouts", "attachment"]
      = some [some (.str message), some (.str severity.name),
        logId.map fun n => .ofNat n.toNat, some (.ofList Json.ofPair userData),
        some (.ofList Callout.toJson callouts), attachment.map Json.ofBytes] := by
    cases logId <;> cases attachment <;> rfl
  rw [ofJson?, hfields]
  simp only [required_some undoes_string, hseverity, hlogId, huserData, hcallouts, hattachment,
    Option.bind_eq_bind, Option.bind_some, Option.pure_def]

theorem Entries.undoes : Undoes Entries.ofJson? Entries.toJson := undoes_list Entry.undoes

/-! ## Failure data -/

theorem FailureKind.undoes :
    Undoes (constant? FailureKind.all FailureKind.key) (fun kind => .str kind.key) :=
  undoes_constant fun kind => by cases kind <;> decide

theorem PartRequest.undoes : Undoes PartRequest.ofJson? PartRequest.toJson := by
  intro request
  have hfields : request.toJson.fields?
      ["hw_id", "priority", "target_entity_path", "clock_position", "is_planar"]
      = some [some (.str request.hardwareId), some (.str request.priority),
        some (.ofBytes request.targetPath), some (.ofNat request.clockPosition.toNat),
        some (.bool request.isPlanar)] := rfl
  rw [ofJson?, hfields]
  simp only [required_some undoes_string, required_some undoes_bytes,
    required_some undoes_uint32, required_some undoes_bool, Option.bind_eq_bind,
    Option.bind_some, Option.pure_def]

theorem TargetRequest.undoes : Undoes TargetRequest.ofJson? TargetRequest.toJson := by
  intro request
  have hfields : request.toJson.fields?
      ["target_entity_path", "callout", "priority", "deconfigure", "guard", "guard_type"]
      = some [some (.ofBytes request.targetPath), some (.bool request.callout),
        some (.str request.priority), some (.bool request.deconfigure),
        some (.bool request.guard), some (.str request.guardType)] := rfl
  rw [ofJson?, hfields]
  simp only [required_some undoes_bytes, required_some undoes_bool, required_some undoes_string,
    Option.bind_eq_bind, Option.bind_some, Option.pure_def]

theorem ProcedureRequest.undoes : Undoes ProcedureRequest.ofJson? ProcedureRequest.toJson := by
  intro request
  have hfields : request.toJson.fields? ["procedure", "priority"]
      = some [some (.str request.procedure), some (.str request.priority)] := rfl
  rw [ofJson?, hfields]
  simp only [required_some undoes_string, Option.bind_eq_bind, Option.bind_some,
    Option.pure_def]

theorem Failure.undoes : Undoes Failure.ofJson? Failure.toJson := by
  intro failure
  have hkind := required_some FailureKind.undoes failure.kind
  have hdata := required_some (undoes_list undoes_pair) failure.data
  have hparts := required_some (undoes_list PartRequest.undoes) failure.parts
  have htargets := required_some (undoes_list TargetRequest.undoes) failure.targets
  have hprocedures := required_some (undoes_list ProcedureRequest.undoes) failure.procedures
  have hfields : failure.toJson.fields?
      ["kind", "message", "rc", "rc_desc", "ffdc_data", "hw_callouts", "cdg_targets",
        "procedure_callouts"]
      = some [some (.str failure.kind.key), some (.str failure.message),
        some (.str failure.returnCode), some (.str failure.returnCodeText),
        some (.ofList Json.ofPair failure.data),
        some (.ofList PartRequest.toJson failure.parts),
        some (.ofList TargetRequest.toJson failure.targets),
        some (.ofList ProcedureRequest.toJson failure.procedures)] := rfl
  rw [ofJson?, hfields]
  simp only [hkind, required_some undoes_string, hdata, hparts, htargets, hprocedures,
    Option.bind_eq_bind, Option.bind_some, Option.pure_def]

/-! ## Target documents -/

theorem str_ne_null (text : String) : Json.str text ≠ .null := nofun

namespace TargetSpec

/-- A target is read from its document once its children are. -/
theorem ofJson?_toJson {target : TargetSpec}
    (hchildren : ofAll? (toJsonAll target.children) = some target.children) :
    ofJson? target.toJson = some target := by
  obtain ⟨name, physicalPath, devicePath, locationCode, unitId, children⟩ := target
  have htext := optional_ofOption undoes_string str_ne_null
  have hunit := optional_ofOption undoes_uint32 (fun n => ofNat_ne_null n.toNat) unitId
  have hfields :
      (TargetSpec.mk name physicalPath devicePath locationCode unitId children).toJson.fields?
        fieldNames
      = some [some (.str name), some (.ofOption .str physicalPath),
        some (.ofOption .str devicePath), some (.ofOption .str locationCode),
        some (.ofOption (fun id => .ofNat id.toNat) unitId),
        some (.arr (toJsonAll children))] := by
    rw [toJson]
    rfl
  have hwith : withChildren? (toJson ⟨name, physicalPath, devicePath, locationCode, unitId,
      children⟩) children
      = some ⟨name, physicalPath, devicePath, locationCode, unitId, children⟩ := by
    rw [withChildren?, hfields]
    simp only [required_some undoes_string, htext, hunit, Option.bind_eq_bind, Option.bind_some,
      Option.pure_def]
  rw [toJson] at hwith ⊢
  rw [ofJson?]
  simp [ofMembers?, ofChildren?, hchildren, hwith]

theorem ofAll?_toJsonAll (forest : List TargetSpec) : ofAll? (toJsonAll forest) = some forest := by
  induction forest using forest_induction with
  | nil => rfl
  | cons target rest hchildren hrest =>
    simp [toJsonAll, ofAll?, ofJson?_toJson hchildren, hrest]

end TargetSpec

theorem TargetDocument.undoes : Undoes TargetDocument.ofJson? TargetDocument.toJson := by
  intro document
  have htext := optional_ofOption undoes_string str_ne_null document.locationCode
  have htargets : orDefault [] TargetSpec.ofChildren?
      (some (.arr (TargetSpec.toJsonAll document.targets))) = some document.targets := by
    rw [orDefault, TargetSpec.ofChildren?, TargetSpec.ofAll?_toJsonAll]
  have hfields : document.toJson.fields? fieldNames
      = some [some (.ofOption .str document.locationCode),
        some (.arr (TargetSpec.toJsonAll document.targets))] := rfl
  rw [ofJson?, hfields]
  simp only [htext, htargets, Option.bind_eq_bind, Option.bind_some, Option.pure_def]

/-! ## All documents -/

/-- Whatever a program keeps in a document is read back as it was, and no document of a callout is
taken for that of a kind that is tried before its own. -/
theorem read_back :
    (∀ entries, Entries.ofJson? (Entries.toJson entries) = some entries) ∧
    (∀ failure : Failure, Failure.ofJson? failure.toJson = some failure) ∧
    (∀ document : TargetDocument, TargetDocument.ofJson? document.toJson = some document) ∧
    (∀ callout : Callout, Callout.ofJson? callout.toJson = some callout) ∧
    (∀ callout : TargetCallout, HardwareCallout.ofJson? callout.toJson = none) ∧
    ∀ callout : ProcedureCallout, HardwareCallout.ofJson? callout.toJson = none ∧
      TargetCallout.ofJson? callout.toJson = none :=
  ⟨Entries.undoes, Failure.undoes, TargetDocument.undoes, Callout.undoes,
    HardwareCallout.ofJson?_target,
    fun callout => ⟨HardwareCallout.ofJson?_procedure callout,
      TargetCallout.ofJson?_procedure callout⟩⟩

end FirstFailure
