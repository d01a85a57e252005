import FirstFailure.Proofs.Report.Entries
import FirstFailure.Proofs.Text.Hex
/-!
# Entries without definitions keep all payloads

Without definitions an entry shows every package as it is: its return code, and a dump of its data
when it has any. The pairs of all packages stand in one row and their keys repeat, but each package
starts with its return code, so the row is read back package by package. Nothing is looked up.
-/

namespace FirstFailure

variable {lookup : TargetLookup} {options : ReportOptions}

/-- What a package says about its failure. -/
abbrev Payload := UInt32 × Bytes

/-- The key of the return code of a package. -/
def returnCodeKey : String := "HWP_RC"

/-- The key of the dump of a package's data. -/
def rawDataKey : String := "HWP_FFDC_RAW_DATA"

namespace Package

/-- The return code of a package and its data. -/
def payload (package : Package) : Payload := (package.returnCode, package.data)

/-- The packages that do not refer to platform data. -/
def withFailure (packages : List Package) : List Package :=
  packages.filter (·.returnCode ≠ platformDataCode)

/-- The payloads of the packages that do not refer to platform data. -/
def payloads (packages : List Package) : List Payload := (withFailure packages).map payload

/-- The pairs of a package that is shown as it is. -/
def rawPairs (options : ReportOptions) (package : Package) : UserData :=
  [(returnCodeKey, "0x" ++ Hex.padded .upper 8 package.returnCode.toNat),
    ("HWP_RC_DESC", "Unrecognized hardware procedure return code"),
    ("HWP_FFDC_CHIP_POS", toString options.chipPosition.toNat),
    ("HWP_FFDC_CHIP_TYPE", options.chipType.key)]
    ++ if package.data = [] then [] else [(rawDataKey, String.ofList (Hex.wordDump package.data))]

/-- Without definitions a package adds its pairs and no callouts, whatever the tree. -/
theorem contribution?_raw {package : Package} (h : package.returnCode ≠ platformDataCode) :
    package.contribution? .raw lookup options = some ⟨package.rawPairs options, []⟩ := by
  rw [contribution?, if_neg h]
  by_cases hdata : package.data = []
  · simp only [rawPairs, hdata]
    rfl
  · have hempty : package.data.isEmpty = false := by simp [hdata]
    simp only [rawPairs, if_neg hdata, Decoder.raw, hempty]
    rfl

theorem contribution?_raw_lookup (lookup : TargetLookup) (package : Package) :
    package.contribution? .raw lookup options = package.contribution? .raw .none options := by
  by_cases h : package.returnCode = platformDataCode
  · exact (if_pos h).trans (if_pos h).symm
  · rw [contribution?_raw h, contribution?_raw h]

theorem contributions_raw (packages : List Package) :
    contributions .raw lookup options packages
      = (withFailure packages).map fun package => ⟨package.rawPairs options, []⟩ := by
  induction packages with
  | nil => rfl
  | cons package rest ih =>
    by_cases h : package.returnCode = platformDataCode
    · have hnone : package.contribution? .raw lookup options = none := if_pos h
      rw [contributions, List.filterMap_cons_none hnone, withFailure,
        List.filter_cons_of_neg (by simp [h])]
      exact ih
    · rw [contributions, List.filterMap_cons_some (contribution?_raw h), withFailure,
        List.filter_cons_of_pos (by simp [h])]
      exact congrArg _ ih

/-- The pairs of a package have one return code, which is its own, and a dump exactly when there is
data, which is that data for as many bytes as there are. -/
structure Shows (package : Package) (pairs : UserData) : Prop where
  returnCode : ∃ text, pairs.filter (·.1 = returnCodeKey) = [(returnCodeKey, text)] ∧
    HexPath.parse text = .ok (Bytes.ofU32 package.returnCode)
  noData : package.data = [] → pairs.filter (·.1 = rawDataKey) = []
  data : package.data ≠ [] →
    ∃ text, pairs.filter (·.1 = rawDataKey) = [(rawDataKey, text)] ∧
      HexPath.parse (Hex.withoutSpaces text) = .ok package.data

theorem shows_rawPairs (options : ReportOptions) (package : Package) :
    package.Shows (package.rawPairs options) := by
  have hkeys : rawDataKey ≠ returnCodeKey := by decide
  by_cases hdata : package.data = []
  · refine ⟨⟨_, ?_, HexPath.parse_prefixed .upper _⟩, fun _ => ?_, fun h => absurd hdata h⟩
    · simp [rawPairs, hdata, returnCodeKey]
    · simp [rawPairs, hdata, returnCodeKey, rawDataKey]
  · refine ⟨⟨_, ?_, HexPath.parse_prefixed .upper _⟩, fun h => absurd h hdata,
      fun _ => ⟨_, ?_, HexPath.parse_withoutSpaces_wordDump hdata⟩⟩
    · simp [rawPairs, hdata, returnCodeKey, rawDataKey]
    · simp [rawPairs, hdata, returnCodeKey, rawDataKey]

end Package

/-! ## Reading the row back -/

namespace UserData

/-- The return code in a text. -/
def readReturnCode (text : String) : UInt32 :=
  match HexPath.parse text with
  | .ok bytes => Bytes.toU32 bytes
  | .error _ => 0

/-- The data in a dump. -/
def readData (text : String) : Bytes :=
  match HexPath.parse (Hex.withoutSpaces text) with
  | .ok bytes => bytes
  | .error _ => []

/-- The payloads in a row of pairs, and the data in front of the first return code. The row is read
from its end: data waits for the return code in front of it. -/
def readPayloads : UserData → Bytes × List Payload
  | [] => ([], [])
  | (key, text) :: rest =>
    let (data, payloads) := readPayloads rest
    if key = returnCodeKey then ([], (readReturnCode text, data) :: payloads)
    else if key = rawDataKey then (readData text, payloads)
    else (data, payloads)

/-- A row that starts with a return code or has none has no data in front of one. The pairs of a
package keep a row so, and add the payload of the package to it. -/
theorem readPayloads_rawPairs_append (options : ReportOptions) (package : Package)
    {rest : UserData} {payloads : List Payload} (h : readPayloads rest = ([], payloads)) :
    readPayloads (package.rawPairs options ++ rest) = ([], package.payload :: payloads) := by
  have hcode : readReturnCode ("0x" ++ Hex.padded .upper 8 package.returnCode.toNat)
      = package.returnCode := by
    simp only [readReturnCode, HexPath.parse_prefixed, Bytes.toU32_ofU32]
  have hkeys : rawDataKey ≠ returnCodeKey := by decide
  by_cases hdata : package.data = []
  · simp [Package.rawPairs, Package.payload, readPayloads, h, hdata, hcode, returnCodeKey,
      rawDataKey]
  · have hread : readData (String.ofList (Hex.wordDump package.data)) = package.data := by
      simp only [readData, HexPath.parse_withoutSpaces_wordDump hdata]
    simp [Package.rawPairs, Package.payload, readPayloads, h, hdata, hcode, hread, returnCodeKey,
      rawDataKey]

theorem readPayloads_row (options : ReportOptions) (packages : List Package) :
    readPayloads (packages.flatMap (·.rawPairs options)
        ++ [(positionKey, positionValue options.chipPosition)])
      = ([], packages.map Package.payload) := by
  induction packages with
  | nil => simp [readPayloads, positionKey, returnCodeKey, rawDataKey]
  | cons package rest ih =>
    rw [List.flatMap_cons, List.append_assoc]
    exact readPayloads_rawPairs_append options package ih

end UserData

namespace Entry

variable (logId : UInt16) (packages : List Package)

theorem ofGroup_raw_userData :
    (ofGroup .raw lookup options logId packages).userData
      = (Package.withFailure packages).flatMap (·.rawPairs options)
        ++ [(positionKey, positionValue options.chipPosition)] := by
  rw [ofGroup_userData, Package.contributions_raw, List.flatMap_map]

theorem readPayloads_ofGroup_raw :
    UserData.readPayloads (ofGroup .raw lookup options logId packages).userData
      = ([], Package.payloads packages) := by
  rw [ofGroup_raw_userData]
  exact UserData.readPayloads_row options (Package.withFailure packages)

theorem ofGroup_raw_callouts : (ofGroup .raw lookup options logId packages).callouts = [] := by
  rw [ofGroup_callouts, Package.contributions_raw, List.flatMap_map]
  exact List.flatMap_eq_nil_iff.mpr fun _ _ => rfl

theorem gather_raw_lookup (lookup : TargetLookup) (severity : Severity) (sum : Contribution) :
    gather .raw lookup options severity sum packages
      = gather .raw .none options severity sum packages := by
  apply gather_eq_of_contributed
  simp only [Package.contributed, Package.contribution?_raw_lookup lookup]

/-- Without definitions the tree is not asked. -/
theorem ofGroup_raw_lookup (lookup : TargetLookup) :
    ofGroup .raw lookup options logId packages = ofGroup .raw .none options logId packages := by
  simp only [ofGroup, gather_raw_lookup packages lookup]

end Entry

theorem Groups.toEntries_raw_lookup (groups : Groups) (lookup : TargetLookup) :
    groups.toEntries .raw lookup options = groups.toEntries .raw .none options :=
  List.map_congr_left fun group _ => Entry.ofGroup_raw_lookup group.1 group.2 lookup

theorem Report.ofResponse_raw_lookup (buffer : Bytes) (lookup : TargetLookup) :
    Report.ofResponse buffer .raw lookup options = Report.ofResponse buffer .raw .none options := by
  simp only [Report.ofResponse, Groups.toEntries_raw_lookup _ lookup]

end FirstFailure
