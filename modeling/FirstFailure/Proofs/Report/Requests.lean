import FirstFailure.Proofs.Report.Entries
import Mathlib.Data.List.Nodup
/-!
# Requests and what they add

The requests of failure data stand in three lists, and each has its place in its list as its number.
What a request adds depends on the request, on its number, and on what the lookup tells of its
target. It does not depend on the other requests, nor on the handle by which the lookup knows that
target. Keys, priorities and truth values are written out here, so that what a request adds is said
without the functions that write them.
-/

namespace FirstFailure

/-! ## Words and numbers -/

/-- The priority that a word asks for. Four words have a meaning, and any other word asks for high
priority. -/
def urgency (word : String) : Priority :=
  match [("HIGH", .high), ("MEDIUM", .medium), ("LOW", .low), ("NONE", .low)].lookup word with
  | some priority => priority
  | none => .high

theorem ofWord_eq_urgency (word : String) : Priority.ofWord word = urgency word := by
  simp only [Priority.ofWord, urgency, List.lookup_cons, List.lookup_nil]
  by_cases hhigh : word = "HIGH"
  · simp [hhigh]
  by_cases hmedium : word = "MEDIUM"
  · simp [hmedium]
  by_cases hlow : word = "LOW"
  · simp [hlow]
  by_cases hnone : word = "NONE"
  · simp [hnone]
  simp [hhigh, hmedium, hlow, hnone, beq_false_of_ne]

/-- A number as keys have it: two digits, or as many as it needs. -/
def numberText (n : Nat) : String :=
  if n < 100 then String.ofList [(n / 10).digitChar, (n % 10).digitChar] else toString n

theorem twoDigits_eq_numberText (n : Nat) : twoDigits n = numberText n := by
  by_cases h : n < 100
  · have hsmall : ∀ n < 100, twoDigits n = numberText n := by decide +kernel
    exact hsmall n h
  · rw [twoDigits, numberText, if_neg h, if_neg (by omega), String.empty_append]

/-! ## What a lookup tells -/

/-- What a lookup tells of a target. -/
structure TargetAnswer where
  locationCode : Option String
  devicePath : Option String
  unitId : Option UInt32
deriving DecidableEq

/-- What a lookup tells of the target that it finds by a path, if it finds one. -/
def TargetLookup.answer? (lookup : TargetLookup) (path : Bytes) : Option TargetAnswer :=
  (lookup.findByPath lookup.root path).map fun target =>
    ⟨lookup.locationCode target, lookup.devicePath target, lookup.unitId target⟩

/-- The fields about the place of a target, as far as it is known. -/
def TargetAnswer.fields (answer : TargetAnswer) : UserData :=
  (answer.locationCode.map ("LOC_CODE", ·)).toList
    ++ (answer.devicePath.map ("PHYS_PATH", ·)).toList

/-- A pair whose key has more in front of it. -/
def withKey (key : String) (field : String × String) : String × String :=
  (key ++ field.1, field.2)

theorem locationPairs_eq (lookup : TargetLookup) (key : String) (target : Nat) :
    locationPairs lookup key target
      = (TargetAnswer.fields ⟨lookup.locationCode target, lookup.devicePath target,
          lookup.unitId target⟩).map (withKey key) := by
  rw [locationPairs, TargetAnswer.fields, List.map_append]
  cases lookup.locationCode target with
  | none =>
    cases lookup.devicePath target with
    | none => rfl
    | some path => rfl
  | some code =>
    cases lookup.devicePath target with
    | none => rfl
    | some path => rfl

/-! ## Requests of any list -/

/-- The lists of requests. -/
inductive RequestList where
  | parts
  | targets
  | procedures
deriving DecidableEq

/-- The name of a list in keys. -/
def RequestList.name : RequestList → String
  | parts => "HWP_HW_CO_"
  | targets => "HWP_CDG_TGT_"
  | procedures => "HWP_PROC_CO_"

/-- The start of the keys of a request. -/
def RequestList.key (list : RequestList) (number : Nat) : String :=
  list.name ++ numberText number ++ "_"

theorem blockKey_name (list : RequestList) (number : Nat) :
    blockKey list.name number = list.key number := by
  rw [blockKey, RequestList.key, twoDigits_eq_numberText]

/-- A part on the planar calls the planar, which is always at the same place. -/
def PartRequest.called (request : PartRequest) : Callout :=
  .hardware {
    inventoryPath := "/xyz/openbmc_project/inventory/system/chassis/motherboard"
    deconfigured := false
    guarded := false
    priority := urgency request.priority }

/-- A target request calls its target, with the replaceable unit that the target has. -/
def TargetRequest.called (request : TargetRequest) (unitId : Option UInt32) : Callout :=
  .target {
    priority := urgency request.priority
    deconfigured := request.deconfigure
    guarded := request.guard
    guardType := request.guardType
    entityPath := request.targetPath
    units := unitId.toList.map fun id => ⟨id, urgency request.priority⟩ }

/-- A procedure request calls its procedure. -/
def ProcedureRequest.called (request : ProcedureRequest) : Callout :=
  .procedure ⟨request.procedure, urgency request.priority⟩

theorem PartRequest.planar_eq_called (request : PartRequest) :
    Callout.hardware (.planar (.ofWord request.priority)) = request.called := by
  rw [ofWord_eq_urgency]
  rfl

theorem TargetRequest.toCallout_eq_called (request : TargetRequest) (unitId : Option UInt32) :
    Callout.target (request.toCallout unitId) = request.called unitId := by
  simp only [toCallout, ofWord_eq_urgency, called]
  cases unitId with
  | none => rfl
  | some id => rfl

theorem ProcedureRequest.procedure_eq_called (request : ProcedureRequest) :
    Callout.procedure ⟨request.procedure, .ofWord request.priority⟩ = request.called := by
  rw [ofWord_eq_urgency]
  rfl

/-- A request, whichever list it stands in. -/
inductive Request where
  | part (request : PartRequest)
  | target (request : TargetRequest)
  | procedure (request : ProcedureRequest)

namespace Request

/-- The list that a request stands in. -/
def list : Request → RequestList
  | part _ => .parts
  | target _ => .targets
  | procedure _ => .procedures

/-- What a lookup tells a request. A procedure is about no target. -/
def answer? (lookup : TargetLookup) : Request → Option TargetAnswer
  | part request => lookup.answer? request.targetPath
  | target request => lookup.answer? request.targetPath
  | procedure _ => none

/-- The fields of a request. Without a target a part only says what it is, and a target says
nothing. -/
def fields : Request → Option TargetAnswer → UserData
  | part request, none => [("HW_ID", request.hardwareId), ("PRIORITY", request.priority)]
  | part request, some answer =>
    [("HW_ID", request.hardwareId), ("PRIORITY", request.priority)] ++ answer.fields
      ++ [("CLK_POS", toString request.clockPosition.toNat),
        ("CALLOUT_PLANAR", if request.isPlanar then "true" else "false")]
  | target _, none => []
  | target request, some answer =>
    answer.fields
      ++ [("CO_REQ", if request.callout then "true" else "false"),
        ("CO_PRIORITY", request.priority),
        ("DECONF_REQ", if request.deconfigure then "true" else "false"),
        ("GUARD_REQ", if request.guard then "true" else "false"),
        ("GUARD_TYPE", request.guardType)]
  | procedure request, _ =>
    [("PRIORITY", request.priority), ("MAINT_PROCEDURE", request.procedure)]

/-- The pairs of a request: its fields, with its list and its number in front of their names. -/
def block (request : Request) (number : Nat) (answer? : Option TargetAnswer) : UserData :=
  (request.fields answer?).map (withKey (request.list.key number))

/-- The callout of a request, if it makes one. -/
def callout? : Request → Option TargetAnswer → Option Callout
  | part request, some _ => if request.isPlanar then some request.called else none
  | target request, some answer => some (request.called answer.unitId)
  | procedure request, _ => some request.called
  | _, none => none

/-- What a request adds. -/
def contribution (lookup : TargetLookup) (number : Nat) : Request → Contribution
  | part request => request.contribution lookup number
  | target request => request.contribution lookup number
  | procedure request => request.contribution number

theorem contribution_eq (lookup : TargetLookup) (number : Nat) (request : Request) :
    request.contribution lookup number
      = ⟨request.block number (request.answer? lookup),
        (request.callout? (request.answer? lookup)).toList⟩ := by
  cases request with
  | part request =>
    have hkey : blockKey partList number = RequestList.parts.key number := blockKey_name .parts _
    simp only [contribution, PartRequest.contribution, answer?, TargetLookup.answer?, hkey,
      request.planar_eq_called]
    cases lookup.findByPath lookup.root request.targetPath with
    | none => rfl
    | some target =>
      simp only [Option.map_some, block, fields, callout?, List.map_append, locationPairs_eq]
      cases request.isPlanar with
      | true => rfl
      | false => rfl
  | target request =>
    have hkey : blockKey targetList number = RequestList.targets.key number :=
      blockKey_name .targets _
    simp only [contribution, TargetRequest.contribution, answer?, TargetLookup.answer?, hkey,
      request.toCallout_eq_called]
    cases lookup.findByPath lookup.root request.targetPath with
    | none => rfl
    | some target =>
      simp only [Option.map_some, block, fields, callout?, List.map_append, locationPairs_eq]
      rfl
  | procedure request =>
    have hkey : blockKey procedureList number = RequestList.procedures.key number :=
      blockKey_name .procedures _
    simp only [contribution, ProcedureRequest.contribution, hkey, request.procedure_eq_called]
    rfl

end Request

theorem blocks_eq {α : Type} (contribution : Nat → α → Contribution) (number : Nat)
    (requests : List α) :
    blocks contribution number requests
      = (requests.zipIdx number).map fun numbered => contribution numbered.2 numbered.1 := by
  induction requests generalizing number with
  | nil => rfl
  | cons request rest ih => rw [blocks, List.zipIdx_cons, List.map_cons, ih]

/-! ## The requests of failure data -/

namespace Failure

/-- The requests of failure data, list by list, each with its number. -/
def requests (failure : Failure) : List (Request × Nat) :=
  (failure.parts.zipIdx 1).map (Prod.map .part id)
    ++ (failure.targets.zipIdx 1).map (Prod.map .target id)
    ++ (failure.procedures.zipIdx 1).map (Prod.map .procedure id)

/-- The pairs of requests in a row. -/
def pairsOf (lookup : TargetLookup) (requests : List (Request × Nat)) : UserData :=
  requests.flatMap fun numbered => numbered.1.block numbered.2 (numbered.1.answer? lookup)

/-- The callouts of requests in a row. -/
def calloutsOf (lookup : TargetLookup) (requests : List (Request × Nat)) : List Callout :=
  requests.flatMap fun numbered => (numbered.1.callout? (numbered.1.answer? lookup)).toList

theorem pairsOf_append (lookup : TargetLookup) (front back : List (Request × Nat)) :
    pairsOf lookup (front ++ back) = pairsOf lookup front ++ pairsOf lookup back :=
  List.flatMap_append

theorem calloutsOf_append (lookup : TargetLookup) (front back : List (Request × Nat)) :
    calloutsOf lookup (front ++ back) = calloutsOf lookup front ++ calloutsOf lookup back :=
  List.flatMap_append

theorem convert_of_convertible {failure : Failure} (h : convertible failure.kind = true)
    (lookup : TargetLookup) :
    failure.convert lookup
      = .ok ⟨failure.heading ++ pairsOf lookup failure.requests,
        calloutsOf lookup failure.requests⟩ := by
  have hrow : blocks (PartRequest.contribution lookup) 1 failure.parts
        ++ blocks (TargetRequest.contribution lookup) 1 failure.targets
        ++ blocks ProcedureRequest.contribution 1 failure.procedures
      = failure.requests.map fun numbered => numbered.1.contribution lookup numbered.2 := by
    simp only [blocks_eq, requests, List.map_append, List.map_map]
    rfl
  rw [convert, if_pos h, List.cons_append, List.cons_append, hrow, Contribution.concat,
    Contribution.append, Contribution.userData_concat, Contribution.callouts_concat,
    List.flatMap_map, List.flatMap_map]
  simp only [Request.contribution_eq]
  rfl

theorem convert_of_not_convertible {failure : Failure} (h : convertible failure.kind = false)
    (lookup : TargetLookup) :
    failure.convert lookup = .error ⟨failure.kind, failure.message⟩ := by
  rw [convert, h]
  rfl

theorem convert_eq_ok {failure : Failure} {lookup : TargetLookup} {contribution : Contribution}
    (h : failure.convert lookup = .ok contribution) :
    contribution.userData = failure.heading ++ pairsOf lookup failure.requests ∧
      contribution.callouts = calloutsOf lookup failure.requests := by
  cases hkind : convertible failure.kind with
  | true =>
    rw [convert_of_convertible hkind, Except.ok.injEq] at h
    subst h
    exact ⟨rfl, rfl⟩
  | false =>
    rw [convert_of_not_convertible hkind] at h
    cases h

/-- The numbers of a list. -/
def numbers (list : RequestList) (count : Nat) : List (RequestList × Nat) :=
  (List.range' 1 count).map (list, ·)

theorem nodup_numbers (list : RequestList) (count : Nat) : (numbers list count).Nodup :=
  (List.nodup_range' 1).map fun _ _ heq => (Prod.mk.inj heq).2

theorem disjoint_numbers {list other : RequestList} (h : list ≠ other) (count otherCount : Nat) :
    (numbers list count).Disjoint (numbers other otherCount) := by
  intro number hmem hmem'
  obtain ⟨_, -, rfl⟩ := List.mem_map.mp hmem
  obtain ⟨_, -, heq⟩ := List.mem_map.mp hmem'
  exact h (Prod.mk.inj heq).1.symm

theorem map_number_zipIdx {α : Type} {toRequest : α → Request} (list : RequestList)
    (h : ∀ request, (toRequest request).list = list) (requests : List α) :
    ((requests.zipIdx 1).map (Prod.map toRequest id)).map
        (fun numbered => (numbered.1.list, numbered.2))
      = numbers list requests.length := by
  rw [numbers, ← List.zipIdx_map_snd 1 requests, List.map_map, List.map_map]
  exact List.map_congr_left fun numbered _ => Prod.ext (h numbered.1) rfl

/-- No two requests have both list and number in common. -/
theorem nodup_requests (failure : Failure) :
    (failure.requests.map fun numbered => (numbered.1.list, numbered.2)).Nodup := by
  rw [requests, List.map_append, List.map_append,
    map_number_zipIdx .parts fun _ => rfl,
    map_number_zipIdx .targets fun _ => rfl,
    map_number_zipIdx .procedures fun _ => rfl]
  refine List.nodup_append'.mpr ⟨List.nodup_append'.mpr ⟨nodup_numbers _ _, nodup_numbers _ _, ?_⟩,
    nodup_numbers _ _, ?_⟩
  · exact disjoint_numbers (by decide) _ _
  · rw [List.disjoint_append_left]
    exact ⟨disjoint_numbers (by decide) _ _, disjoint_numbers (by decide) _ _⟩

end Failure

end FirstFailure
