import FirstFailure.Diagnostic.Validation
import Mathlib.Data.List.Basic
/-!
# Faults are the broken rules

What a validation reports is said here without its scans: a fault names an entry and, where there is
one, a position, and it is reported exactly when the rule is broken there. The order of the report
is that of the entries, of the rules and of the positions. Since that order is strict, no fault is
reported twice, and the report is known from the rules alone.
-/

namespace FirstFailure

namespace EntryFault

/-- The entry that a fault is about. -/
def entry : EntryFault → Nat
  | emptyMessage entry => entry
  | missingPosition entry => entry
  | misplacedPosition entry => entry
  | emptyKey entry _ => entry
  | emptyProcedure entry _ => entry
  | emptyEntityPath entry _ => entry

/-- The number of the broken rule: on the message, on the position pair, on keys, on callouts. -/
def rule : EntryFault → Nat
  | emptyMessage _ => 0
  | missingPosition _ => 1
  | misplacedPosition _ => 1
  | emptyKey _ _ => 2
  | emptyProcedure _ _ => 3
  | emptyEntityPath _ _ => 3

/-- The position in the entry, for rules on every key or callout. -/
def position : EntryFault → Nat
  | emptyKey _ position => position
  | emptyProcedure _ position => position
  | emptyEntityPath _ position => position
  | _ => 0

/-- The order of a report: by entry, then by rule, then by position. -/
def Before (first second : EntryFault) : Prop :=
  first.entry < second.entry ∨ first.entry = second.entry ∧
    (first.rule < second.rule ∨ first.rule = second.rule ∧ first.position < second.position)

end EntryFault

namespace Entry

/-- User data that ends with a position pair. -/
def EndsWithPosition (userData : UserData) : Prop :=
  ∃ before value, userData = before ++ [(positionKey, value)]

/-- User data that ends with a position pair and has another one before. -/
def RepeatsPosition (userData : UserData) : Prop :=
  ∃ before value, userData = before ++ [(positionKey, value)] ∧
    ∃ pair ∈ before, pair.1 = positionKey

/-- What it is for an entry to break a rule, at the position of the fault. -/
def Breaks (entry : Entry) : EntryFault → Prop
  | .emptyMessage _ => entry.message = ""
  | .missingPosition _ => ¬EndsWithPosition entry.userData
  | .misplacedPosition _ => RepeatsPosition entry.userData
  | .emptyKey _ position => ∃ value, entry.userData[position]? = some ("", value)
  | .emptyProcedure _ position =>
    ∃ callout, entry.callouts[position]? = some (.procedure callout) ∧ callout.procedure = ""
  | .emptyEntityPath _ position =>
    ∃ callout, entry.callouts[position]? = some (.target callout) ∧ callout.entityPath = []

/-- An entry that keeps every rule. -/
structure Valid (entry : Entry) : Prop where
  message : entry.message ≠ ""
  position_last : EndsWithPosition entry.userData
  position_once : entry.userData.countP (·.1 = positionKey) = 1
  keys : ∀ pair ∈ entry.userData, pair.1 ≠ ""
  procedures : ∀ callout, .procedure callout ∈ entry.callouts → callout.procedure ≠ ""
  paths : ∀ callout, .target callout ∈ entry.callouts → callout.entityPath ≠ []

/-! ## What each scan reports -/

theorem positionFaults_of_not_endsWithPosition {userData : UserData}
    (h : ¬EndsWithPosition userData) (index : Nat) :
    positionFaults index userData = [.missingPosition index] := by
  unfold positionFaults
  split
  next key value hlast =>
    obtain ⟨before, rfl⟩ := List.getLast?_eq_some_iff.mp hlast
    have hkey : key ≠ positionKey := by
      intro heq
      exact h ⟨before, value, by rw [heq]⟩
    simp [hkey]
  next => rfl

theorem positionFaults_concat (index : Nat) (before : UserData) (value : String) :
    positionFaults index (before ++ [(positionKey, value)])
      = if before.any (fun pair => pair.1 = positionKey) then [.misplacedPosition index]
        else [] := by
  simp only [positionFaults, List.getLast?_concat, List.dropLast_concat, if_true]

theorem repeatsPosition_concat_iff (before : UserData) (value : String) :
    RepeatsPosition (before ++ [(positionKey, value)]) ↔ ∃ pair ∈ before, pair.1 = positionKey := by
  constructor
  · intro ⟨other, otherValue, heq, hpair⟩
    rwa [(List.append_inj' heq rfl).1]
  · intro hpair
    exact ⟨before, value, rfl, hpair⟩

theorem mem_positionFaults_iff (index : Nat) (userData : UserData) (fault : EntryFault) :
    fault ∈ positionFaults index userData ↔
      fault = .missingPosition index ∧ ¬EndsWithPosition userData ∨
        fault = .misplacedPosition index ∧ RepeatsPosition userData := by
  by_cases hends : EndsWithPosition userData
  · obtain ⟨before, value, rfl⟩ := hends
    have hends : EndsWithPosition (before ++ [(positionKey, value)]) := ⟨before, value, rfl⟩
    rw [positionFaults_concat, repeatsPosition_concat_iff]
    by_cases hrepeats : ∃ pair ∈ before, pair.1 = positionKey
    · simp [hends, hrepeats]
    · simp [hends, hrepeats]
  · have hrepeats : ¬RepeatsPosition userData := by
      intro ⟨before, value, hdata, _⟩
      exact hends ⟨before, value, hdata⟩
    simp [positionFaults_of_not_endsWithPosition hends, hends, hrepeats]

theorem mem_keyFaults_iff (index position : Nat) (userData : UserData) (fault : EntryFault) :
    fault ∈ keyFaults index position userData ↔
      ∃ offset value, userData[offset]? = some ("", value) ∧
        fault = .emptyKey index (position + offset) := by
  induction userData generalizing position with
  | nil => simp [keyFaults]
  | cons pair rest ih =>
    obtain ⟨key, value⟩ := pair
    rw [keyFaults, List.mem_append, ih]
    constructor
    · intro h
      rcases h with hfirst | ⟨offset, value', hvalue, rfl⟩
      · by_cases hkey : key = ""
        · exact ⟨0, value, by simp [hkey], by simpa [hkey] using hfirst⟩
        · simp [hkey] at hfirst
      · exact ⟨offset + 1, value', hvalue, by rw [Nat.add_assoc, Nat.add_comm 1]⟩
    · intro ⟨offset, value', hvalue, hfault⟩
      cases offset with
      | zero =>
        simp only [List.getElem?_cons_zero, Option.some.injEq, Prod.mk.injEq] at hvalue
        exact .inl (by simp [hvalue.1, hfault])
      | succ offset =>
        exact .inr ⟨offset, value', hvalue, by rw [hfault, Nat.add_assoc, Nat.add_comm 1]⟩

theorem mem_calloutFaults_iff (index position : Nat) (callouts : List Callout)
    (fault : EntryFault) :
    fault ∈ calloutFaults index position callouts ↔
      ∃ offset callout, callouts[offset]? = some callout ∧
        fault ∈ calloutFault index (position + offset) callout := by
  induction callouts generalizing position with
  | nil => simp [calloutFaults]
  | cons first rest ih =>
    rw [calloutFaults, List.mem_append, ih]
    constructor
    · intro h
      rcases h with hfirst | ⟨offset, callout, hcallout, hfault⟩
      · exact ⟨0, first, rfl, hfirst⟩
      · exact ⟨offset + 1, callout, hcallout, by rwa [Nat.add_comm offset, ← Nat.add_assoc]⟩
    · intro ⟨offset, callout, hcallout, hfault⟩
      cases offset with
      | zero =>
        cases hcallout
        exact .inl hfault
      | succ offset =>
        exact .inr ⟨offset, callout, hcallout, by rwa [Nat.add_assoc, Nat.add_comm 1]⟩

/-- A callout has one fault at most, and it is of the kind of the callout. -/
theorem mem_calloutFault_iff (index position : Nat) (callout : Callout) (fault : EntryFault) :
    fault ∈ calloutFault index position callout ↔
      (∃ procedure, callout = .procedure procedure ∧ procedure.procedure = "" ∧
          fault = .emptyProcedure index position) ∨
        ∃ target, callout = .target target ∧ target.entityPath = [] ∧
          fault = .emptyEntityPath index position := by
  cases callout with
  | hardware part => simp [calloutFault]
  | procedure procedure =>
    by_cases h : procedure.procedure = "" <;> simp [calloutFault, h]
  | target target =>
    by_cases h : target.entityPath = [] <;> simp [calloutFault, h]

/-- An entry has a fault exactly when it breaks the rule. -/
theorem mem_faults_iff (index : Nat) (entry : Entry) (fault : EntryFault) :
    fault ∈ entry.faults index ↔ fault.entry = index ∧ entry.Breaks fault := by
  have hmessage : fault ∈ (if entry.message = "" then [EntryFault.emptyMessage index] else []) ↔
      fault = .emptyMessage index ∧ entry.message = "" := by
    by_cases h : entry.message = "" <;> simp [h]
  simp only [faults, List.mem_append, hmessage, mem_positionFaults_iff, mem_keyFaults_iff,
    mem_calloutFaults_iff, mem_calloutFault_iff, Nat.zero_add]
  cases fault with
  | emptyMessage other => simp [EntryFault.entry, Breaks]
  | missingPosition other => simp [EntryFault.entry, Breaks]
  | misplacedPosition other => simp [EntryFault.entry, Breaks]
  | emptyKey other position => grind [EntryFault.entry, Breaks]
  | emptyProcedure other position => grind [EntryFault.entry, Breaks]
  | emptyEntityPath other position => grind [EntryFault.entry, Breaks]

/-! ## Their order -/

/-- Faults of one entry on different rules. -/
theorem before_of_rule_lt {first second : EntryFault} (hentry : first.entry = second.entry)
    (hrule : first.rule < second.rule) : first.Before second :=
  .inr ⟨hentry, .inl hrule⟩

theorem pairwise_positionFaults (index : Nat) (userData : UserData) :
    (positionFaults index userData).Pairwise EntryFault.Before := by
  by_cases hends : EndsWithPosition userData
  · obtain ⟨before, value, rfl⟩ := hends
    rw [positionFaults_concat]
    split
    next => exact List.pairwise_singleton _ _
    next => exact .nil
  · rw [positionFaults_of_not_endsWithPosition hends]
    exact List.pairwise_singleton _ _

theorem pairwise_keyFaults (index position : Nat) (userData : UserData) :
    (keyFaults index position userData).Pairwise EntryFault.Before := by
  induction userData generalizing position with
  | nil => exact .nil
  | cons pair rest ih =>
    obtain ⟨key, value⟩ := pair
    rw [keyFaults, List.pairwise_append]
    refine ⟨by split <;> simp, ih (position + 1), ?_⟩
    intro first hfirst second hsecond
    obtain ⟨offset, value', -, rfl⟩ := (mem_keyFaults_iff ..).mp hsecond
    have heq : first = .emptyKey index position := by
      split at hfirst
      next => exact List.mem_singleton.mp hfirst
      next => cases hfirst
    rw [heq]
    exact .inr ⟨rfl, .inr ⟨rfl, by simp only [EntryFault.position]; omega⟩⟩

/-- What a fault of a callout has in common with those of other callouts. -/
theorem of_mem_calloutFault {index position : Nat} {callout : Callout} {fault : EntryFault}
    (h : fault ∈ calloutFault index position callout) :
    fault.entry = index ∧ fault.rule = 3 ∧ fault.position = position := by
  rcases (mem_calloutFault_iff ..).mp h with ⟨procedure, -, -, rfl⟩ | ⟨target, -, -, rfl⟩
  · exact ⟨rfl, rfl, rfl⟩
  · exact ⟨rfl, rfl, rfl⟩

theorem pairwise_calloutFault (index position : Nat) (callout : Callout) :
    (calloutFault index position callout).Pairwise EntryFault.Before := by
  cases callout with
  | hardware part => exact .nil
  | procedure procedure =>
    by_cases h : procedure.procedure = "" <;> simp [calloutFault, h]
  | target target =>
    by_cases h : target.entityPath = [] <;> simp [calloutFault, h]

theorem pairwise_calloutFaults (index position : Nat) (callouts : List Callout) :
    (calloutFaults index position callouts).Pairwise EntryFault.Before := by
  induction callouts generalizing position with
  | nil => exact .nil
  | cons callout rest ih =>
    rw [calloutFaults, List.pairwise_append]
    refine ⟨pairwise_calloutFault index position callout, ih (position + 1), ?_⟩
    intro first hfirst second hsecond
    obtain ⟨offset, later, -, hlater⟩ := (mem_calloutFaults_iff ..).mp hsecond
    obtain ⟨hentry, hrule, hposition⟩ := of_mem_calloutFault hfirst
    obtain ⟨hentry', hrule', hposition'⟩ := of_mem_calloutFault hlater
    exact .inr ⟨hentry.trans hentry'.symm, .inr ⟨hrule.trans hrule'.symm, by omega⟩⟩

theorem pairwise_faults (index : Nat) (entry : Entry) :
    (entry.faults index).Pairwise EntryFault.Before := by
  have hmessage : ∀ fault ∈ (if entry.message = "" then [EntryFault.emptyMessage index] else []),
      fault.entry = index ∧ fault.rule = 0 := by
    intro fault hfault
    split at hfault
    next => rw [List.mem_singleton.mp hfault]; exact ⟨rfl, rfl⟩
    next => cases hfault
  have hposition : ∀ fault ∈ positionFaults index entry.userData,
      fault.entry = index ∧ fault.rule = 1 := by
    intro fault hfault
    rcases (mem_positionFaults_iff ..).mp hfault with ⟨rfl, -⟩ | ⟨rfl, -⟩
    · exact ⟨rfl, rfl⟩
    · exact ⟨rfl, rfl⟩
  have hkeys : ∀ fault ∈ keyFaults index 0 entry.userData,
      fault.entry = index ∧ fault.rule = 2 := by
    intro fault hfault
    obtain ⟨offset, value, -, rfl⟩ := (mem_keyFaults_iff ..).mp hfault
    exact ⟨rfl, rfl⟩
  have hcallouts : ∀ fault ∈ calloutFaults index 0 entry.callouts,
      fault.entry = index ∧ fault.rule = 3 := by
    intro fault hfault
    obtain ⟨offset, callout, -, hcallout⟩ := (mem_calloutFaults_iff ..).mp hfault
    obtain ⟨hentry, hrule, -⟩ := of_mem_calloutFault hcallout
    exact ⟨hentry, hrule⟩
  simp only [faults, List.pairwise_append, List.mem_append]
  refine ⟨⟨⟨?_, pairwise_positionFaults .., ?_⟩, pairwise_keyFaults .., ?_⟩,
    pairwise_calloutFaults .., ?_⟩
  · split <;> simp
  all_goals
    intro first hfirst second hsecond
    apply before_of_rule_lt
    all_goals grind

/-! ## Valid entries -/

theorem countP_position_iff {userData : UserData} (h : EndsWithPosition userData) :
    userData.countP (·.1 = positionKey) = 1 ↔ ¬RepeatsPosition userData := by
  obtain ⟨before, value, rfl⟩ := h
  have hlast : [(positionKey, value)].countP (·.1 = positionKey) = 1 := by simp
  rw [repeatsPosition_concat_iff, List.countP_append, hlast, Nat.add_eq_right, List.countP_eq_zero]
  simp only [decide_eq_true_eq, not_exists, not_and]

theorem valid_iff (index : Nat) (entry : Entry) :
    entry.Valid ↔ ∀ fault, fault.entry = index → ¬entry.Breaks fault := by
  constructor
  · intro h fault _ hbreaks
    cases fault with
    | emptyMessage => exact h.message hbreaks
    | missingPosition => exact hbreaks h.position_last
    | misplacedPosition => exact (countP_position_iff h.position_last).mp h.position_once hbreaks
    | emptyKey _ position =>
      obtain ⟨value, hvalue⟩ := hbreaks
      exact h.keys _ (List.mem_of_getElem? hvalue) rfl
    | emptyProcedure _ position =>
      obtain ⟨callout, hcallout, hempty⟩ := hbreaks
      exact h.procedures callout (List.mem_of_getElem? hcallout) hempty
    | emptyEntityPath _ position =>
      obtain ⟨callout, hcallout, hempty⟩ := hbreaks
      exact h.paths callout (List.mem_of_getElem? hcallout) hempty
  · intro h
    have hlast : EndsWithPosition entry.userData := by
      by_contra hends
      exact h (.missingPosition index) rfl hends
    refine ⟨h (.emptyMessage index) rfl, hlast,
      (countP_position_iff hlast).mpr (h (.misplacedPosition index) rfl), ?_, ?_, ?_⟩
    · intro ⟨key, value⟩ hpair hkey
      obtain ⟨position, hposition⟩ := List.getElem?_of_mem hpair
      exact h (.emptyKey index position) rfl ⟨value, by rw [hposition, ← hkey]⟩
    · intro callout hcallout hempty
      obtain ⟨position, hposition⟩ := List.getElem?_of_mem hcallout
      exact h (.emptyProcedure index position) rfl ⟨callout, hposition, hempty⟩
    · intro callout hcallout hempty
      obtain ⟨position, hposition⟩ := List.getElem?_of_mem hcallout
      exact h (.emptyEntityPath index position) rfl ⟨callout, hposition, hempty⟩

theorem faults_eq_nil_iff (index : Nat) (entry : Entry) :
    entry.faults index = [] ↔ entry.Valid := by
  simp only [valid_iff index, List.eq_nil_iff_forall_not_mem, mem_faults_iff, not_and]

end Entry

namespace Entries

/-- What it is for entries to break a rule. -/
def Breaks (entries : Entries) (fault : EntryFault) : Prop :=
  ∃ entry, entries[fault.entry]? = some entry ∧ entry.Breaks fault

theorem mem_faultsFrom_iff (index : Nat) (entries : Entries) (fault : EntryFault) :
    fault ∈ faultsFrom index entries ↔
      ∃ offset entry, entries[offset]? = some entry ∧ fault.entry = index + offset ∧
        entry.Breaks fault := by
  induction entries generalizing index with
  | nil => simp [faultsFrom]
  | cons first rest ih =>
    rw [faultsFrom, List.mem_append, ih, Entry.mem_faults_iff]
    constructor
    · intro h
      rcases h with ⟨hentry, hbreaks⟩ | ⟨offset, entry, hentry, hindex, hbreaks⟩
      · exact ⟨0, first, rfl, hentry, hbreaks⟩
      · exact ⟨offset + 1, entry, hentry, by omega, hbreaks⟩
    · intro ⟨offset, entry, hentry, hindex, hbreaks⟩
      cases offset with
      | zero =>
        cases hentry
        exact .inl ⟨hindex, hbreaks⟩
      | succ offset => exact .inr ⟨offset, entry, hentry, by omega, hbreaks⟩

theorem mem_faults_iff (entries : Entries) (fault : EntryFault) :
    fault ∈ entries.faults ↔ entries.Breaks fault := by
  rw [faults, mem_faultsFrom_iff, Breaks]
  simp

theorem pairwise_faultsFrom (index : Nat) (entries : Entries) :
    (faultsFrom index entries).Pairwise EntryFault.Before := by
  induction entries generalizing index with
  | nil => exact .nil
  | cons entry rest ih =>
    rw [faultsFrom, List.pairwise_append]
    refine ⟨entry.pairwise_faults index, ih (index + 1), ?_⟩
    intro first hfirst second hsecond
    obtain ⟨hentry, -⟩ := (Entry.mem_faults_iff ..).mp hfirst
    obtain ⟨offset, later, -, hlater, -⟩ := (mem_faultsFrom_iff ..).mp hsecond
    exact .inl (by omega)

theorem faultsFrom_eq_nil_iff (index : Nat) (entries : Entries) :
    faultsFrom index entries = [] ↔ ∀ entry ∈ entries, entry.Valid := by
  induction entries generalizing index with
  | nil => simp [faultsFrom]
  | cons entry rest ih =>
    rw [faultsFrom, List.append_eq_nil_iff, Entry.faults_eq_nil_iff, ih, List.forall_mem_cons]

/-- A validation reports the broken rules, each once and in their order, and it reports nothing
exactly when every entry is valid. -/
theorem faults_are_broken_rules (entries : Entries) :
    (∀ fault, fault ∈ entries.faults ↔ entries.Breaks fault) ∧
      entries.faults.Pairwise EntryFault.Before ∧
      (entries.faults = [] ↔ ∀ entry ∈ entries, entry.Valid) :=
  ⟨entries.mem_faults_iff, pairwise_faultsFrom 0 entries, faultsFrom_eq_nil_iff 0 entries⟩

/-- All kinds of faults in two entries. The last pair of the second one is a position pair, so
nothing is missing there; the callouts are reported in their own order. -/
example :
    faults [
      ⟨"failed", .undefined, none, [(positionKey, "0"), ("HWP_RC", "0")], [], none⟩,
      ⟨"", .undefined, none, [("", "1"), (positionKey, "0"), ("", "2"), (positionKey, "0")],
        [.target ⟨.high, true, false, "", [], []⟩, .procedure ⟨"EPUB", .low⟩,
          .procedure ⟨"", .low⟩], none⟩]
      = [.missingPosition 0, .emptyMessage 1, .misplacedPosition 1, .emptyKey 1 0, .emptyKey 1 2,
        .emptyEntityPath 1 0, .emptyProcedure 1 2] := by
  decide

end Entries

end FirstFailure
