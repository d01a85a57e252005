import FirstFailure.Proofs.Report.Entries
/-!
# Entries by what their packages contribute

An entry is the sum of its group: what the packages among it that contribute add, in the order of
the group, and the position pair. The others leave no trace but in the attachment, wherever they
stand and for whatever reason they do not contribute. A group of them alone still makes an entry.
-/

namespace FirstFailure

variable {decoder : Decoder} {lookup : TargetLookup} {options : ReportOptions}

namespace Package

/-- The contributions of packages in a row. A package that does not contribute is passed over. -/
inductive Gathered (decoder : Decoder) (lookup : TargetLookup) (options : ReportOptions) :
    List Package → List Contribution → Prop where
  | nil : Gathered decoder lookup options [] []
  | pass {package : Package} {rest : List Package} {contributions : List Contribution} :
      (∀ contribution, ¬package.Contributes decoder lookup options contribution) →
      Gathered decoder lookup options rest contributions →
      Gathered decoder lookup options (package :: rest) contributions
  | add {package : Package} {rest : List Package} {contribution : Contribution}
      {contributions : List Contribution} :
      package.Contributes decoder lookup options contribution →
      Gathered decoder lookup options rest contributions →
      Gathered decoder lookup options (package :: rest) (contribution :: contributions)

/-- Some packages of a row that do not contribute are left out of it. -/
inductive LeftOut (decoder : Decoder) (lookup : TargetLookup) (options : ReportOptions) :
    List Package → List Package → Prop where
  | nil : LeftOut decoder lookup options [] []
  | keep {rest others : List Package} (package : Package) :
      LeftOut decoder lookup options rest others →
      LeftOut decoder lookup options (package :: rest) (package :: others)
  | leave {package : Package} {rest others : List Package} :
      (∀ contribution, ¬package.Contributes decoder lookup options contribution) →
      LeftOut decoder lookup options rest others →
      LeftOut decoder lookup options (package :: rest) others

theorem gathered_contributions (packages : List Package) :
    Gathered decoder lookup options packages (contributions decoder lookup options packages) := by
  induction packages with
  | nil => exact .nil
  | cons package rest ih =>
    rw [contributions]
    cases hpackage : package.contribution? decoder lookup options with
    | none =>
      rw [List.filterMap_cons_none hpackage]
      exact .pass (contribution?_eq_none_iff.mp hpackage) ih
    | some contribution =>
      rw [List.filterMap_cons_some hpackage]
      exact .add (contribution?_eq_some_iff.mp hpackage) ih

theorem contributed_cons_of_not_contributes {package : Package}
    (h : ∀ contribution, ¬package.Contributes decoder lookup options contribution)
    (rest : List Package) :
    contributed decoder lookup options (package :: rest)
      = contributed decoder lookup options rest := by
  rw [contributed, List.filterMap_cons_none]
  · rfl
  · rw [contribution?_eq_none_iff.mpr h, Option.map_none]

/-- Leaving packages out that do not contribute changes nothing of what is added. -/
theorem LeftOut.contributed_eq {packages others : List Package}
    (h : LeftOut decoder lookup options packages others) :
    contributed decoder lookup options packages = contributed decoder lookup options others := by
  induction h with
  | nil => rfl
  | keep package _ ih =>
    rw [contributed, List.filterMap_cons, ← contributed, ih]
    rfl
  | leave hnone _ ih => rw [contributed_cons_of_not_contributes hnone, ih]

theorem contributed_eq_nil {packages : List Package}
    (h : ∀ package ∈ packages, ∀ contribution,
      ¬package.Contributes decoder lookup options contribution) :
    contributed decoder lookup options packages = [] := by
  rw [contributed, List.filterMap_eq_nil_iff]
  intro package hpackage
  rw [contribution?_eq_none_iff.mpr (h package hpackage), Option.map_none]

end Package

namespace Entry

/-- The entry of a group as the sum of its packages. -/
structure SumsUp (decoder : Decoder) (lookup : TargetLookup) (options : ReportOptions)
    (logId : UInt16) (packages : List Package) (entry : Entry) : Prop where
  logId : entry.logId = some logId
  message : entry.message = options.message
  /-- User data and callouts are those of the contributions in a row, the position pair apart. -/
  sum : ∃ contributions, Package.Gathered decoder lookup options packages contributions ∧
    entry.userData = contributions.flatMap (·.userData)
      ++ [("SRC6", toString (options.chipPosition.toNat * 65536 % 2 ^ 32))] ∧
    entry.callouts = contributions.flatMap (·.callouts)
  attachment : entry.attachment.isSome = options.attachRaw
  /-- Where no package contributes there is nothing but the position. -/
  empty : (∀ package ∈ packages, ∀ contribution,
      ¬package.Contributes decoder lookup options contribution) →
    entry.userData = [("SRC6", toString (options.chipPosition.toNat * 65536 % 2 ^ 32))] ∧
      entry.callouts = [] ∧ entry.severity = .undefined

variable (logId : UInt16)

theorem ofGroup_sumsUp (packages : List Package) :
    SumsUp decoder lookup options logId packages
      (ofGroup decoder lookup options logId packages) where
  logId := rfl
  message := rfl
  sum := ⟨_, Package.gathered_contributions packages, ofGroup_userData logId packages,
    ofGroup_callouts logId packages⟩
  attachment := by
    simp only [ofGroup]
    cases options.attachRaw with
    | true => rfl
    | false => rfl
  empty h := by
    have hnone := Package.contributed_eq_nil h
    have hcontributions : Package.contributions decoder lookup options packages = [] := by
      rw [← Package.map_snd_contributed, hnone, List.map_nil]
    refine ⟨?_, ?_, ?_⟩
    · rw [ofGroup_userData, hcontributions]
      rfl
    · rw [ofGroup_callouts, hcontributions]
      rfl
    · simp only [ofGroup, gather_eq, hnone, List.foldl_nil]

/-- Without packages that do not contribute a group makes the same entry but for its attachment. -/
theorem ofGroup_leftOut {packages others : List Package}
    (h : Package.LeftOut decoder lookup options packages others) :
    { ofGroup decoder lookup options logId packages with attachment := none }
      = { ofGroup decoder lookup options logId others with attachment := none } := by
  simp only [ofGroup, gather_eq_of_contributed h.contributed_eq]

end Entry

/-- Every group makes one entry, in the order of the groups, and each entry is the sum of its group:
it has the log id of the group and the message that is asked for, the user data and the callouts of
the packages that contribute, in their order, with the position pair behind them, and an attachment
when that is asked for. Packages that do not contribute may be left out of a group or put into it
anywhere: of all entries only its own changes, and that in its attachment only. -/
theorem entries_sum_up (groups : Groups) (decoder : Decoder) (lookup : TargetLookup)
    (options : ReportOptions) :
    List.Forall₂
      (fun group entry => Entry.SumsUp decoder lookup options group.1 group.2 entry)
      groups.toList (groups.toEntries decoder lookup options) ∧
    ∀ front logId packages others back, groups.toList = front ++ (logId, packages) :: back →
      Package.LeftOut decoder lookup options packages others →
      ∃ before entry other after, before.length = front.length ∧
        groups.toEntries decoder lookup options = before ++ entry :: after ∧
        Groups.toEntries ⟨front ++ (logId, others) :: back⟩ decoder lookup options
          = before ++ other :: after ∧
        { entry with attachment := none } = { other with attachment := none } := by
  constructor
  · rw [Groups.toEntries, List.forall₂_map_right_iff, List.forall₂_same]
    exact fun group _ => Entry.ofGroup_sumsUp group.1 group.2
  · intro front logId packages others back hplace hleftOut
    refine ⟨front.map fun group => Entry.ofGroup decoder lookup options group.1 group.2, _, _,
      back.map fun group => Entry.ofGroup decoder lookup options group.1 group.2,
      List.length_map _, ?_, ?_, Entry.ofGroup_leftOut logId hleftOut⟩
    · rw [Groups.toEntries, hplace, List.map_append, List.map_cons]
    · rw [Groups.toEntries, List.map_append, List.map_cons]

/-- A decoder that knows all return codes but one. -/
def forgetful : Decoder := fun returnCode data chipPosition chipType =>
  if returnCode = 5 then .error (.unknownReturnCode returnCode)
  else Decoder.raw returnCode data chipPosition chipType

/-- A package of log id 7 that only its return code tells from others. -/
def coded (returnCode : UInt32) : Package :=
  { (default : Package) with logId := 7, returnCode }

/-- A package that refers to platform data and one that is not decoded are left out of a group. -/
theorem entries_sum_up_partial :
    ∃ entry other,
      Package.LeftOut forgetful .none { attachRaw := true }
        [coded 0x02000001, coded 3, coded 5] [coded 3] ∧
      Groups.toEntries ⟨[(7, [coded 0x02000001, coded 3, coded 5])]⟩ forgetful .none
        { attachRaw := true } = [entry] ∧
      Groups.toEntries ⟨[(7, [coded 3])]⟩ forgetful .none { attachRaw := true } = [other] ∧
      { entry with attachment := none } = { other with attachment := none } ∧
      entry.attachment ≠ other.attachment := by
  have hleftOut : Package.LeftOut forgetful .none { attachRaw := true }
      [coded 0x02000001, coded 3, coded 5] [coded 3] := by
    refine .leave (fun _ h => h.returnCode rfl) (.keep _ (.leave ?_ .nil))
    rintro _ ⟨-, failure, hdecode, -⟩
    cases hdecode
  obtain ⟨before, entry, other, after, hlength, hentry, hother, hsame⟩ :=
    (entries_sum_up ⟨[(7, [coded 0x02000001, coded 3, coded 5])]⟩ forgetful .none
      { attachRaw := true }).2 [] 7 _ _ [] rfl hleftOut
  obtain rfl := List.eq_nil_of_length_eq_zero hlength
  obtain ⟨rfl, rfl⟩ := List.cons.inj hentry
  obtain ⟨rfl, -⟩ := List.cons.inj hother
  exact ⟨_, _, hleftOut, rfl, rfl, hsame, by decide +kernel⟩

end FirstFailure
