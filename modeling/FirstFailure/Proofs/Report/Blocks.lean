import FirstFailure.Proofs.Report.Keys
/-!
# Every request is accounted for

The pairs that a request adds stand together, and no other pair has a key with its list and its
number. The callout that it makes stands behind those of the requests before it. Neither depends on
the other requests: where two lookups tell a request the same, it adds the same, whatever they tell
the others.
-/

namespace FirstFailure

variable {failure : Failure} {lookup : TargetLookup} {contribution : Contribution}

/-- The keys of a request: its list and its number, and the name of a field. -/
def IsNumbered (list : RequestList) (number : Nat) (key : String) : Prop :=
  ∃ name, key = list.key number ++ name

/-- Where the pairs and the callout of a request stand in what failure data adds. The request is
told `told`, and the requests in front of it and behind it are told what the lookup knows. -/
structure Accounts (lookup : TargetLookup) (contribution : Contribution)
    (front : List (Request × Nat)) (request : Request) (number : Nat)
    (back : List (Request × Nat)) (told : Option TargetAnswer) : Prop where
  /-- The pairs with the list and the number of the request stand together. -/
  block : ∃ before after, contribution.userData = before ++ request.block number told ++ after ∧
    (∀ pair ∈ request.block number told, IsNumbered request.list number pair.1) ∧
    ∀ pair ∈ before ++ after, ¬IsNumbered request.list number pair.1
  /-- The callout stands between those of the requests in front and those of the requests behind. -/
  callouts : contribution.callouts
    = Failure.calloutsOf lookup front ++ (request.callout? told).toList
      ++ Failure.calloutsOf lookup back

namespace Failure

/-! ## Blocks -/

/-- Where keys tell what pairs are about, a pair numbered like a request is about a field of it. -/
theorem field_of_isNumbered {pairs : UserData} {origins : List KeyOrigin}
    (hkeys : pairs.map (·.1) = origins.map KeyOrigin.key) {list : RequestList} {number : Nat}
    {pair : String × String} (hpair : pair ∈ pairs) (h : IsNumbered list number pair.1) :
    ∃ name, KeyOrigin.field list number name ∈ origins := by
  obtain ⟨name, hkey⟩ := h
  have hmem : pair.1 ∈ origins.map KeyOrigin.key := hkeys ▸ List.mem_map_of_mem hpair
  obtain ⟨origin, horigin, horiginKey⟩ := List.mem_map.mp hmem
  have hfield : origin = .field list number name :=
    KeyOrigin.key_injective (horiginKey.trans hkey)
  exact ⟨name, hfield ▸ horigin⟩

theorem not_isNumbered_heading (list : RequestList) (number : Nat) {pair : String × String}
    (h : pair ∈ failure.heading) : ¬IsNumbered list number pair.1 := by
  intro hkey
  obtain ⟨name, hfield⟩ := field_of_isNumbered (keys_heading failure) h hkey
  rcases of_mem_headingOrigins hfield with heq | heq | ⟨_, heq⟩ <;> cases heq

theorem not_isNumbered_pairsOf {list : RequestList} {number : Nat}
    {requests : List (Request × Nat)}
    (hother : (list, number) ∉ requests.map fun numbered => (numbered.1.list, numbered.2))
    {pair : String × String} (h : pair ∈ pairsOf lookup requests) :
    ¬IsNumbered list number pair.1 := by
  intro hkey
  obtain ⟨name, hfield⟩ := field_of_isNumbered (keys_pairsOf lookup requests) h hkey
  obtain ⟨numbered, hnumbered, _, heq⟩ := of_mem_originsOf hfield
  obtain ⟨rfl, rfl, -⟩ := KeyOrigin.field.inj heq
  exact hother (List.mem_map_of_mem hnumbered)

theorem accounts_of_convert (h : failure.convert lookup = .ok contribution)
    {front back : List (Request × Nat)} {request : Request} {number : Nat}
    (hplace : failure.requests = front ++ (request, number) :: back) :
    Accounts lookup contribution front request number back (request.answer? lookup) := by
  obtain ⟨huserData, hcallouts⟩ := convert_eq_ok h
  have hsplit : failure.requests = front ++ [(request, number)] ++ back := by
    rw [hplace, List.append_assoc, List.singleton_append]
  have hnodup := failure.nodup_requests
  rw [hsplit, List.map_append, List.map_append, List.nodup_append', List.nodup_append'] at hnodup
  obtain ⟨⟨-, -, hfront⟩, -, hback⟩ := hnodup
  constructor
  case block =>
    refine ⟨failure.heading ++ pairsOf lookup front, pairsOf lookup back, ?_, ?_, ?_⟩
    · rw [huserData, hsplit, pairsOf_append, pairsOf_append]
      simp [pairsOf]
    · intro pair hpair
      obtain ⟨field, -, rfl⟩ := List.mem_map.mp hpair
      exact ⟨field.1, rfl⟩
    · intro pair hpair
      rw [List.mem_append, List.mem_append] at hpair
      rcases hpair with (hpair | hpair) | hpair
      · exact not_isNumbered_heading _ _ hpair
      · exact not_isNumbered_pairsOf (fun hmem => hfront hmem (.head _)) hpair
      · exact not_isNumbered_pairsOf (hback (List.mem_append_right _ (.head _))) hpair
  case callouts =>
    rw [hcallouts, hsplit, calloutsOf_append, calloutsOf_append]
    simp [calloutsOf]

/-! ## Callouts -/

/-- The callouts that failure data asks for: the planar for each part on it whose target is found,
each target that is found, with its replaceable unit if it has one, and each procedure. -/
def expectedCallouts (failure : Failure) (lookup : TargetLookup) : List Callout :=
  (failure.parts.filter fun request =>
      request.isPlanar && (lookup.findByPath lookup.root request.targetPath).isSome).map
    (·.called)
  ++ failure.targets.filterMap (fun request =>
    (lookup.findByPath lookup.root request.targetPath).map fun target =>
      request.called (lookup.unitId target))
  ++ failure.procedures.map (·.called)

theorem calloutsOf_zipIdx {α : Type} (toRequest : α → Request) (requests : List α) :
    calloutsOf lookup ((requests.zipIdx 1).map (Prod.map toRequest id))
      = requests.filterMap fun request =>
        (toRequest request).callout? ((toRequest request).answer? lookup) := by
  conv_rhs => rw [← List.zipIdx_map_fst 1 requests]
  rw [calloutsOf, List.filterMap_eq_flatMap_toList, List.flatMap_map, List.flatMap_map]
  rfl

theorem callout?_part (lookup : TargetLookup) (request : PartRequest) :
    (Request.part request).callout? ((Request.part request).answer? lookup)
      = if request.isPlanar && (lookup.findByPath lookup.root request.targetPath).isSome then
          some request.called
        else none := by
  rw [Request.answer?, TargetLookup.answer?]
  cases lookup.findByPath lookup.root request.targetPath with
  | none => simp [Request.callout?]
  | some target => simp [Request.callout?]

theorem calloutsOf_parts (lookup : TargetLookup) (requests : List PartRequest) :
    requests.filterMap (fun request =>
        (Request.part request).callout? ((Request.part request).answer? lookup))
      = (requests.filter fun request =>
          request.isPlanar && (lookup.findByPath lookup.root request.targetPath).isSome).map
        (·.called) := by
  induction requests with
  | nil => rfl
  | cons request rest ih =>
    by_cases hcalled :
        (request.isPlanar && (lookup.findByPath lookup.root request.targetPath).isSome) = true
    · rw [List.filterMap_cons, callout?_part, List.filter_cons, if_pos hcalled, if_pos hcalled, ih]
      rfl
    · rw [List.filterMap_cons, callout?_part, List.filter_cons, if_neg hcalled, if_neg hcalled, ih]

theorem callout?_target (lookup : TargetLookup) (request : TargetRequest) :
    (Request.target request).callout? ((Request.target request).answer? lookup)
      = (lookup.findByPath lookup.root request.targetPath).map fun target =>
        request.called (lookup.unitId target) := by
  rw [Request.answer?, TargetLookup.answer?]
  cases lookup.findByPath lookup.root request.targetPath with
  | none => rfl
  | some target => rfl

theorem calloutsOf_requests (failure : Failure) (lookup : TargetLookup) :
    calloutsOf lookup failure.requests = failure.expectedCallouts lookup := by
  have hprocedures : failure.procedures.filterMap (fun request =>
        (Request.procedure request).callout? ((Request.procedure request).answer? lookup))
      = failure.procedures.map (·.called) := by
    rw [← List.filterMap_eq_map]
    rfl
  rw [requests, calloutsOf_append, calloutsOf_append, calloutsOf_zipIdx, calloutsOf_zipIdx,
    calloutsOf_zipIdx, calloutsOf_parts, hprocedures, expectedCallouts]
  simp only [callout?_target]

end Failure

/-- Failure data makes something exactly when it is of no kind in particular or of an unsupported
one; else the error tells its kind and its message. What it makes has the callouts that were asked
for, list by list, and no others. Each request has its pairs in one piece, which no other pair is
numbered like, and its callout between those of the requests before it and those behind it; a part
that is not found has its name and its priority only, and a target that is not found has nothing.
With another lookup that tells a request the same, that request has the same pairs and the same
callout, whatever it tells the others. -/
theorem requests_accounted_for (failure : Failure) (lookup : TargetLookup) :
    (failure.kind ≠ .none → failure.kind ≠ .unsupported →
      failure.convert lookup = .error ⟨failure.kind, failure.message⟩) ∧
    (failure.kind = .none ∨ failure.kind = .unsupported →
      ∃ contribution, failure.convert lookup = .ok contribution ∧
        contribution.callouts = failure.expectedCallouts lookup ∧
        ∀ front request number back, failure.requests = front ++ (request, number) :: back →
          Accounts lookup contribution front request number back (request.answer? lookup) ∧
          (∀ part, request = .part part →
            lookup.findByPath lookup.root part.targetPath = none →
            request.block number (request.answer? lookup)
                = [(RequestList.parts.key number ++ "HW_ID", part.hardwareId),
                  (RequestList.parts.key number ++ "PRIORITY", part.priority)] ∧
              request.callout? (request.answer? lookup) = none) ∧
          (∀ target, request = .target target →
            lookup.findByPath lookup.root target.targetPath = none →
            request.block number (request.answer? lookup) = [] ∧
              request.callout? (request.answer? lookup) = none) ∧
          ∀ other : TargetLookup, request.answer? other = request.answer? lookup →
            ∃ otherContribution, failure.convert other = .ok otherContribution ∧
              Accounts other otherContribution front request number back
                (request.answer? lookup)) := by
  constructor
  · intro hnone hunsupported
    have hkind : Failure.convertible failure.kind = false := by
      simp [Failure.convertible, hnone, hunsupported]
    exact Failure.convert_of_not_convertible hkind lookup
  · intro hkind
    have hconvertible : Failure.convertible failure.kind = true := by
      simpa [Failure.convertible] using hkind
    have hconvert := Failure.convert_of_convertible hconvertible lookup
    refine ⟨_, hconvert, Failure.calloutsOf_requests failure lookup, ?_⟩
    intro front request number back hplace
    refine ⟨Failure.accounts_of_convert hconvert hplace, ?_, ?_, ?_⟩
    · rintro part rfl hnone
      simp only [Request.answer?, TargetLookup.answer?, hnone]
      exact ⟨rfl, rfl⟩
    · rintro target rfl hnone
      simp only [Request.answer?, TargetLookup.answer?, hnone]
      exact ⟨rfl, rfl⟩
    · intro other hsame
      have hother := Failure.convert_of_convertible hconvertible other
      exact ⟨_, hother, hsame ▸ Failure.accounts_of_convert hother hplace⟩

/-- A lookup that knows the targets of the given paths, by their places in the list. -/
def knowing (paths : List Bytes) : TargetLookup where
  root := 0
  findByPath _ path := if path ∈ paths then some (paths.idxOf path) else none
  locationCode _ := some "P0"
  devicePath _ := none
  unitId _ := some 5

/-- A part on the planar, of one target. -/
def memoryPart : PartRequest := ⟨"VPD", "LOW", [0xCD], 0, true⟩

/-- A part on the planar, of another target. -/
def clockPart : PartRequest := ⟨"CLOCK", "MEDIUM", [0xAB], 1, true⟩

/-- A request to guard the target of `memoryPart`. -/
def guardRequest : TargetRequest := ⟨[0xCD], true, "HIGH", true, true, "GARD_Fatal"⟩

/-- Procedures with words for their urgency. -/
def clockProcedures : List ProcedureRequest :=
  [⟨"BMC0001", "HIGH"⟩, ⟨"BMC0002", "NONE"⟩, ⟨"BMC0003", "low"⟩]

/-- The requests behind the second part. -/
def requestsBehind : List (Request × Nat) :=
  [(.target guardRequest, 1), (.procedure ⟨"BMC0001", "HIGH"⟩, 1),
    (.procedure ⟨"BMC0002", "NONE"⟩, 2), (.procedure ⟨"BMC0003", "low"⟩, 3)]

/-- Failure data with two parts, a target to guard and procedures of all urgencies. The last one
asks with a word that has no meaning. -/
def clockFailure : Failure where
  kind := .none
  message := ""
  returnCode := "RC_CLOCK"
  returnCodeText := ""
  data := []
  parts := [memoryPart, clockPart]
  targets := [guardRequest]
  procedures := clockProcedures

/-- The second part has the same pairs and the same callout whether or not the targets of its
neighbours are found, though its own target has another handle then. -/
theorem requests_accounted_for_neighbours :
    clockFailure.requests = [(.part memoryPart, 1)] ++ (.part clockPart, 2) :: requestsBehind ∧
    (Request.part clockPart).answer? (knowing [[0xCD], [0xAB]])
      = (Request.part clockPart).answer? (knowing [[0xAB]]) ∧
    ∃ contribution other,
      clockFailure.convert (knowing [[0xAB]]) = .ok contribution ∧
      contribution.callouts = [.hardware (.planar .medium), .procedure ⟨"BMC0001", .high⟩,
        .procedure ⟨"BMC0002", .low⟩, .procedure ⟨"BMC0003", .high⟩] ∧
      clockFailure.convert (knowing [[0xCD], [0xAB]]) = .ok other ∧
      Accounts (knowing [[0xCD], [0xAB]]) other [(.part memoryPart, 1)] (.part clockPart) 2
        requestsBehind (some ⟨some "P0", none, some 5⟩) ∧
      (Request.part clockPart).block 2 (some ⟨some "P0", none, some 5⟩)
        = [("HWP_HW_CO_02_HW_ID", "CLOCK"), ("HWP_HW_CO_02_PRIORITY", "MEDIUM"),
          ("HWP_HW_CO_02_LOC_CODE", "P0"), ("HWP_HW_CO_02_CLK_POS", "1"),
          ("HWP_HW_CO_02_CALLOUT_PLANAR", "true")] := by
  have hplace : clockFailure.requests
      = [(.part memoryPart, 1)] ++ (.part clockPart, 2) :: requestsBehind := rfl
  have hsame : (Request.part clockPart).answer? (knowing [[0xCD], [0xAB]])
      = (Request.part clockPart).answer? (knowing [[0xAB]]) := by decide
  obtain ⟨contribution, hconvert, hcallouts, hrequests⟩ :=
    (requests_accounted_for clockFailure (knowing [[0xAB]])).2 (.inl rfl)
  obtain ⟨-, -, -, hothers⟩ := hrequests _ _ _ _ hplace
  obtain ⟨other, hother, haccounts⟩ := hothers _ hsame
  exact ⟨hplace, hsame, contribution, other, hconvert, hcallouts.trans (by decide), hother,
    haccounts, by decide +kernel⟩

end FirstFailure
