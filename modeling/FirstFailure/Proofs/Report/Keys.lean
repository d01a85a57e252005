import FirstFailure.Proofs.Report.Requests
import FirstFailure.Proofs.Text.Decimal
/-!
# Keys tell what they are about

The key of a pair is written from what the pair is about, and what it is about can be read back from
the key: the families of keys differ in the letter behind `HWP_`, and a number ends at the first
underscore, however many digits it has. So two pairs have the same key only when they are about the
same, and this only happens to raw data that the failure data itself names alike.
-/

namespace FirstFailure

/-! ## Numbers -/

theorem not_mem_twoDigits {n : Nat} {c : Char} (h : c.isDigit = false) :
    c ∉ (twoDigits n).toList := by
  rw [twoDigits, String.toList_append, List.mem_append, not_or]
  refine ⟨?_, Decimal.not_mem_toString h⟩
  split
  · intro hc
    cases List.mem_singleton.mp hc
    cases h
  · exact List.not_mem_nil

/-- The zero in front of a digit does not count. -/
theorem ofDigitChars_twoDigits (n : Nat) : Nat.ofDigitChars 10 (twoDigits n).toList 0 = n := by
  rw [twoDigits, String.toList_append]
  split
  · show Nat.ofDigitChars 10 ('0' :: (toString n).toList) 0 = n
    rw [Nat.ofDigitChars_cons]
    exact Decimal.ofDigitChars_toString n
  · exact Decimal.ofDigitChars_toString n

/-! ## What a key is about -/

/-- What the pair of a key is about. -/
inductive KeyOrigin where
  /-- The return code. -/
  | returnCode
  /-- The description of the return code. -/
  | returnCodeText
  /-- Raw data of the given name. -/
  | data (name : String)
  /-- A field of the request with the given number in a list. -/
  | field (list : RequestList) (number : Nat) (name : String)
deriving DecidableEq

namespace KeyOrigin

/-- The key of a pair about something. -/
def key : KeyOrigin → String
  | returnCode => "HWP_RC"
  | returnCodeText => "HWP_RC_DESC"
  | data name => "HWP_FFDC_" ++ name
  | field list number name => list.key number ++ name

/-- The field whose number and name follow the name of its list. -/
def ofBlock (list : RequestList) (text : List Char) : KeyOrigin :=
  field list (Nat.ofDigitChars 10 (text.takeWhile (· ≠ '_')) 0)
    (String.ofList ((text.dropWhile (· ≠ '_')).drop 1))

/-- What the pair of a key is about, from the characters of the key. -/
def ofChars? (key : List Char) : Option KeyOrigin :=
  match key.drop 4 with
  | ['R', 'C'] => some returnCode
  | 'R' :: _ => some returnCodeText
  | 'F' :: rest => some (data (String.ofList (rest.drop 4)))
  | 'H' :: rest => some (ofBlock .parts (rest.drop 5))
  | 'C' :: rest => some (ofBlock .targets (rest.drop 7))
  | 'P' :: rest => some (ofBlock .procedures (rest.drop 7))
  | _ => none

theorem ofBlock_twoDigits (list : RequestList) (number : Nat) (name : String) :
    ofBlock list ((twoDigits number).toList ++ '_' :: name.toList) = field list number name := by
  have hdigits : ∀ c ∈ (twoDigits number).toList, decide (c ≠ '_') = true := by
    intro c hc
    rw [decide_eq_true_iff]
    rintro rfl
    exact not_mem_twoDigits (by decide) hc
  have hnumber : ((twoDigits number).toList ++ '_' :: name.toList).takeWhile (· ≠ '_')
      = (twoDigits number).toList := by
    rw [List.takeWhile_append_of_pos hdigits, List.takeWhile_cons_of_neg (by simp),
      List.append_nil]
  have hname : ((twoDigits number).toList ++ '_' :: name.toList).dropWhile (· ≠ '_')
      = '_' :: name.toList := by
    rw [List.dropWhile_append_of_pos hdigits, List.dropWhile_cons_of_neg (by simp)]
  rw [ofBlock, hnumber, hname, ofDigitChars_twoDigits, List.drop_one, List.tail_cons,
    String.ofList_toList]

theorem toList_key_field (list : RequestList) (number : Nat) (name : String) :
    (field list number name).key.toList
      = list.name.toList ++ ((twoDigits number).toList ++ '_' :: name.toList) := by
  simp [key, ← blockKey_name, blockKey, String.toList_append]

/-- A key tells what its pair is about. -/
theorem ofChars?_key (origin : KeyOrigin) : ofChars? origin.key.toList = some origin := by
  cases origin with
  | returnCode => rfl
  | returnCodeText => rfl
  | data name =>
    rw [key, String.toList_append]
    show some (data (String.ofList name.toList)) = _
    rw [String.ofList_toList]
  | field list number name =>
    rw [toList_key_field, ← ofBlock_twoDigits list number name]
    cases list with
    | parts => rfl
    | targets => rfl
    | procedures => rfl

/-- Numbers of more than two digits are written in full. -/
example : (field .procedures 100 "PRIORITY").key = "HWP_PROC_CO_100_PRIORITY" := by decide +kernel

theorem key_injective : Function.Injective key := by
  intro origin other h
  have hread := congrArg (fun text : String => ofChars? text.toList) h
  simpa only [ofChars?_key, Option.some.injEq] using hread

end KeyOrigin

/-! ## What the pairs of failure data are about -/

/-- The names of the fields that requests of a list may have. -/
def RequestList.fieldNames : RequestList → List String
  | parts => ["HW_ID", "PRIORITY", "LOC_CODE", "PHYS_PATH", "CLK_POS", "CALLOUT_PLANAR"]
  | targets =>
    ["LOC_CODE", "PHYS_PATH", "CO_REQ", "CO_PRIORITY", "DECONF_REQ", "GUARD_REQ", "GUARD_TYPE"]
  | procedures => ["PRIORITY", "MAINT_PROCEDURE"]

namespace Request

/-- What the pairs of a request are about. -/
def origins (request : Request) (number : Nat) (answer? : Option TargetAnswer) : List KeyOrigin :=
  (request.fields answer?).map fun field => .field request.list number field.1

theorem keys_block (request : Request) (number : Nat) (answer? : Option TargetAnswer) :
    (request.block number answer?).map (·.1)
      = (request.origins number answer?).map KeyOrigin.key := by
  rw [block, origins, List.map_map, List.map_map]
  rfl

theorem of_mem_origins {request : Request} {number : Nat} {answer? : Option TargetAnswer}
    {origin : KeyOrigin} (h : origin ∈ request.origins number answer?) :
    ∃ name, origin = .field request.list number name := by
  obtain ⟨field, -, rfl⟩ := List.mem_map.mp h
  exact ⟨field.1, rfl⟩

/-- What a lookup tells is told in this order, as far as it is known. -/
theorem names_answer_sublist (answer : TargetAnswer) :
    (answer.fields.map (·.1)).Sublist ["LOC_CODE", "PHYS_PATH"] := by
  obtain ⟨locationCode, devicePath, unitId⟩ := answer
  cases locationCode with
  | none => cases devicePath <;> simp [TargetAnswer.fields]
  | some code => cases devicePath <;> simp [TargetAnswer.fields]

theorem names_sublist (request : Request) (answer? : Option TargetAnswer) :
    ((request.fields answer?).map (·.1)).Sublist request.list.fieldNames := by
  cases request with
  | part request =>
    cases answer? with
    | none => simp [fields, list, RequestList.fieldNames]
    | some answer =>
      simp only [fields, List.map_append]
      exact ((List.Sublist.refl ["HW_ID", "PRIORITY"]).append
        (names_answer_sublist answer)).append (.refl ["CLK_POS", "CALLOUT_PLANAR"])
  | target request =>
    cases answer? with
    | none => exact List.nil_sublist _
    | some answer =>
      simp only [fields, List.map_append]
      exact (names_answer_sublist answer).append
        (.refl ["CO_REQ", "CO_PRIORITY", "DECONF_REQ", "GUARD_REQ", "GUARD_TYPE"])
  | procedure request => exact .refl _

/-- A request has no field twice. -/
theorem nodup_fields (request : Request) (answer? : Option TargetAnswer) :
    ((request.fields answer?).map (·.1)).Nodup := by
  refine (request.names_sublist answer?).nodup ?_
  cases request.list with
  | parts => decide
  | targets => decide
  | procedures => decide

theorem nodup_origins (request : Request) (number : Nat) (answer? : Option TargetAnswer) :
    (request.origins number answer?).Nodup := by
  have hmap : request.origins number answer?
      = ((request.fields answer?).map (·.1)).map (.field request.list number) := by
    rw [List.map_map]
    rfl
  rw [hmap]
  exact (request.nodup_fields answer?).map fun _ _ heq => (KeyOrigin.field.inj heq).2.2

end Request

namespace Failure

/-- What the pairs of requests in a row are about. -/
def originsOf (lookup : TargetLookup) (requests : List (Request × Nat)) : List KeyOrigin :=
  requests.flatMap fun numbered => numbered.1.origins numbered.2 (numbered.1.answer? lookup)

/-- What the pairs in front of the requests are about. -/
def headingOrigins (failure : Failure) : List KeyOrigin :=
  [.returnCode, .returnCodeText] ++ failure.data.map fun raw => .data raw.1

/-- What the pairs of failure data are about, in the order of the pairs. -/
def origins (failure : Failure) (lookup : TargetLookup) : List KeyOrigin :=
  failure.headingOrigins ++ originsOf lookup failure.requests

theorem keys_heading (failure : Failure) :
    failure.heading.map (·.1) = failure.headingOrigins.map KeyOrigin.key := by
  simp only [heading, headingOrigins, List.map_append, List.map_map]
  rfl

theorem keys_pairsOf (lookup : TargetLookup) (requests : List (Request × Nat)) :
    (pairsOf lookup requests).map (·.1) = (originsOf lookup requests).map KeyOrigin.key := by
  simp only [pairsOf, originsOf, List.map_flatMap, Request.keys_block]

theorem keys_convert {failure : Failure} {lookup : TargetLookup} {contribution : Contribution}
    (h : failure.convert lookup = .ok contribution) :
    contribution.userData.map (·.1) = (failure.origins lookup).map KeyOrigin.key := by
  rw [(convert_eq_ok h).1, List.map_append, keys_heading, keys_pairsOf, ← List.map_append, origins]

theorem exists_origin {failure : Failure} {lookup : TargetLookup} {contribution : Contribution}
    (h : failure.convert lookup = .ok contribution) {i : Nat} {pair : String × String}
    (hi : contribution.userData[i]? = some pair) :
    ∃ origin, (failure.origins lookup)[i]? = some origin ∧ origin.key = pair.1 := by
  have hkey : (contribution.userData.map (·.1))[i]? = some pair.1 := by
    rw [List.getElem?_map, hi, Option.map_some]
  rw [keys_convert h, List.getElem?_map] at hkey
  exact Option.map_eq_some_iff.mp hkey

theorem of_mem_headingOrigins {failure : Failure} {origin : KeyOrigin}
    (h : origin ∈ failure.headingOrigins) :
    origin = .returnCode ∨ origin = .returnCodeText ∨ ∃ name, origin = .data name := by
  simp only [headingOrigins, List.mem_append, List.mem_cons, List.not_mem_nil, or_false,
    List.mem_map] at h
  rcases h with (rfl | rfl) | ⟨raw, -, rfl⟩
  · exact .inl rfl
  · exact .inr (.inl rfl)
  · exact .inr (.inr ⟨raw.1, rfl⟩)

theorem of_mem_originsOf {lookup : TargetLookup} {requests : List (Request × Nat)}
    {origin : KeyOrigin} (h : origin ∈ originsOf lookup requests) :
    ∃ numbered ∈ requests, ∃ name, origin = .field numbered.1.list numbered.2 name := by
  obtain ⟨numbered, hnumbered, horigin⟩ := List.mem_flatMap.mp h
  exact ⟨numbered, hnumbered, Request.of_mem_origins horigin⟩

/-- Different requests have different lists or numbers, so no field is there twice. -/
theorem nodup_originsOf (failure : Failure) (lookup : TargetLookup) :
    (originsOf lookup failure.requests).Nodup := by
  have hrequests := List.pairwise_map.mp failure.nodup_requests
  refine List.nodup_flatMap.mpr ⟨fun _ _ => Request.nodup_origins _ _ _, hrequests.imp ?_⟩
  intro numbered other hne origin hmem hmem'
  obtain ⟨name, rfl⟩ := Request.of_mem_origins hmem
  obtain ⟨otherName, heq⟩ := Request.of_mem_origins hmem'
  obtain ⟨hlist, hnumber, -⟩ := KeyOrigin.field.inj heq
  exact hne (Prod.ext hlist hnumber)

/-- Nothing but raw data is there twice. -/
theorem pairwise_origins (failure : Failure) (lookup : TargetLookup) :
    (failure.origins lookup).Pairwise fun origin other =>
      origin = other → ∃ name, origin = .data name := by
  rw [origins, List.pairwise_append]
  refine ⟨?_, (failure.nodup_originsOf lookup).imp fun hne heq => absurd heq hne, ?_⟩
  · rw [headingOrigins, List.pairwise_append]
    refine ⟨by simp, ?_, ?_⟩
    · exact List.pairwise_map.mpr (List.pairwise_of_forall fun raw _ _ => ⟨raw.1, rfl⟩)
    · intro origin _ other hother heq
      obtain ⟨raw, -, rfl⟩ := List.mem_map.mp hother
      exact ⟨raw.1, heq⟩
  · intro origin horigin other hother heq
    obtain ⟨numbered, -, name, rfl⟩ := of_mem_originsOf hother
    rcases of_mem_headingOrigins horigin with rfl | rfl | hdata
    · cases heq
    · cases heq
    · exact hdata

theorem data_of_repeated {failure : Failure} {lookup : TargetLookup} {i j : Nat}
    {origin : KeyOrigin} (hne : i ≠ j) (hi : (failure.origins lookup)[i]? = some origin)
    (hj : (failure.origins lookup)[j]? = some origin) : ∃ name, origin = .data name := by
  have hpairwise := List.pairwise_iff_getElem.mp (failure.pairwise_origins lookup)
  obtain ⟨hiLength, rfl⟩ := List.getElem?_eq_some_iff.mp hi
  obtain ⟨hjLength, heq⟩ := List.getElem?_eq_some_iff.mp hj
  rcases Nat.lt_or_gt_of_ne hne with hlt | hgt
  · exact hpairwise i j hiLength hjLength hlt heq.symm
  · exact heq ▸ hpairwise j i hjLength hiLength hgt heq

/-- The raw data stands behind return code and description, in its own order. -/
theorem raw_of_origin {failure : Failure} {lookup : TargetLookup} {i : Nat} {name : String}
    (h : (failure.origins lookup)[i]? = some (.data name)) :
    ∃ a raw, i = a + 2 ∧ failure.data[a]? = some raw ∧ raw.1 = name := by
  rw [origins, headingOrigins, List.append_assoc] at h
  match i with
  | 0 => cases h
  | 1 => cases h
  | a + 2 =>
    have hrest : (failure.data.map (fun raw => KeyOrigin.data raw.1)
        ++ originsOf lookup failure.requests)[a]? = some (.data name) := h
    rw [List.getElem?_append] at hrest
    split at hrest
    next =>
      rw [List.getElem?_map, Option.map_eq_some_iff] at hrest
      obtain ⟨raw, hraw, heq⟩ := hrest
      exact ⟨a, raw, rfl, hraw, KeyOrigin.data.inj heq⟩
    next =>
      obtain ⟨_, -, _, heq⟩ := of_mem_originsOf (List.mem_of_getElem? hrest)
      cases heq

end Failure

/-- The key of a pair tells what the pair is about: return code or description, raw data of some
name, or a field of the request with some number in one of the lists. No two of these have the same
key, whatever names a decoder makes up and however large the numbers are; so no field has the key of
the return code, of its description or of raw data. Two pairs of failure data have the same key only
when they are raw data that the failure data names alike. -/
theorem keys_tell_origins {failure : Failure} {lookup : TargetLookup} {contribution : Contribution}
    (h : failure.convert lookup = .ok contribution) :
    contribution.userData.map (·.1) = (failure.origins lookup).map KeyOrigin.key ∧
    Function.Injective KeyOrigin.key ∧
    (∀ list number name, (KeyOrigin.field list number name).key ≠ "HWP_RC" ∧
      (KeyOrigin.field list number name).key ≠ "HWP_RC_DESC" ∧
      ∀ text, (KeyOrigin.field list number name).key ≠ "HWP_FFDC_" ++ text) ∧
    ∀ i j pair other, contribution.userData[i]? = some pair →
      contribution.userData[j]? = some other → i ≠ j → pair.1 = other.1 →
      ∃ a b raw otherRaw, i = a + 2 ∧ j = b + 2 ∧ failure.data[a]? = some raw ∧
        failure.data[b]? = some otherRaw ∧ raw.1 = otherRaw.1 := by
  have hkeys := Failure.keys_convert h
  refine ⟨hkeys, KeyOrigin.key_injective, fun list number name => ⟨?_, ?_, fun text => ?_⟩, ?_⟩
  · exact fun heq => nomatch @KeyOrigin.key_injective _ .returnCode heq
  · exact fun heq => nomatch @KeyOrigin.key_injective _ .returnCodeText heq
  · exact fun heq => nomatch @KeyOrigin.key_injective _ (.data text) heq
  · intro i j pair other hi hj hne hkey
    obtain ⟨origin, hiOrigin, hiKey⟩ := Failure.exists_origin h hi
    obtain ⟨_, hjOrigin, hjKey⟩ := Failure.exists_origin h hj
    obtain rfl := KeyOrigin.key_injective (hiKey.trans (hkey.trans hjKey.symm))
    obtain ⟨name, rfl⟩ := Failure.data_of_repeated hne hiOrigin hjOrigin
    obtain ⟨a, raw, hia, hraw, hname⟩ := Failure.raw_of_origin hiOrigin
    obtain ⟨b, otherRaw, hjb, hotherRaw, hotherName⟩ := Failure.raw_of_origin hjOrigin
    exact ⟨a, b, raw, otherRaw, hia, hjb, hraw, hotherRaw, hname.trans hotherName.symm⟩

/-- Failure data that names raw data alike, and names some of it like the return code. -/
def repetitive : Failure where
  kind := .unsupported
  message := ""
  returnCode := "RC_PLAT"
  returnCodeText := ""
  data := [("STATE", "1"), ("RC", "2"), ("STATE", "3")]
  parts := []
  targets := []
  procedures := [⟨"BMC0001", "HIGH"⟩]

/-- What `repetitive` adds to an entry. -/
def repetitiveContribution : Contribution where
  userData := [("HWP_RC", "RC_PLAT"), ("HWP_RC_DESC", ""), ("HWP_FFDC_STATE", "1"),
    ("HWP_FFDC_RC", "2"), ("HWP_FFDC_STATE", "3"), ("HWP_PROC_CO_01_PRIORITY", "HIGH"),
    ("HWP_PROC_CO_01_MAINT_PROCEDURE", "BMC0001")]
  callouts := [.procedure ⟨"BMC0001", .high⟩]

/-- The third and the fifth pair have the same key, and they are the first and the third of the raw
data. -/
theorem keys_tell_origins_repetitive :
    (repetitive.convert .none = .ok repetitiveContribution ∧
      repetitiveContribution.userData[2]? = some ("HWP_FFDC_STATE", "1") ∧
      repetitiveContribution.userData[4]? = some ("HWP_FFDC_STATE", "3")) ∧
    ∃ a b raw otherRaw, 2 = a + 2 ∧ 4 = b + 2 ∧ repetitive.data[a]? = some raw ∧
      repetitive.data[b]? = some otherRaw ∧ raw.1 = otherRaw.1 := by
  have hconvert : repetitive.convert .none = .ok repetitiveContribution := by decide +kernel
  exact ⟨⟨hconvert, rfl, rfl⟩,
    (keys_tell_origins hconvert).2.2.2 2 4 _ _ rfl rfl (by decide) rfl⟩

end FirstFailure
