import FirstFailure.Proofs.Disk.Received
import FirstFailure.Proofs.Process
import FirstFailure.Proofs.Text.Hex
import FirstFailure.Report.Attachments
import Mathlib.Data.List.Nodup
/-!
# Attachments end up in files of their own

The name under which an attachment is kept tells the stem and the log id apart, and it is never the
name of a scratch file, whatever letters and digits are chosen for the latter. A scratch file is
made where nothing was, and it is gone once its attachment is kept. So writing the attachments of
entries leaves a disk that has received the last attachment under each log id, which is each of them
when the log ids are different, and is otherwise unchanged.
-/

namespace FirstFailure

open Disk

namespace Hex

theorem not_mem_padded {letters : Case} {width n : Nat} {c : Char} (h : isDigit c = false) :
    c ∉ (padded letters width n).toList := by
  intro hc
  rw [padded, String.toList_ofList] at hc
  rw [isDigit_of_mem_digits hc] at h
  cases h

/-- Four digits tell 16 bits. -/
theorem padded_injective (letters : Case) {n m : UInt16}
    (h : padded letters 4 n.toNat = padded letters 4 m.toNat) : n = m := by
  have hdigits := congrArg String.toList h
  simp only [padded, String.toList_ofList, digits_eq_dump letters 2] at hdigits
  have hbytes := congrArg HexPath.bytesOfPairs hdigits
  rw [HexPath.bytesOfPairs_dump, HexPath.bytesOfPairs_dump] at hbytes
  have hnumbers := congrArg Bytes.toU16 hbytes
  rwa [← Bytes.ofU16, ← Bytes.ofU16, Bytes.toU16_ofU16, Bytes.toU16_ofU16] at hnumbers

end Hex

namespace AttachmentFile

/-! ## Names -/

theorem keptName_eq (stem : String) (logId : UInt16) :
    keptName stem logId = stem ++ ("-slid-" ++ Hex.padded .lower 4 logId.toNat ++ ".bin") := by
  simp only [keptName, String.append_assoc]

theorem length_padded (logId : UInt16) : (Hex.padded .lower 4 logId.toNat).toList.length = 4 := by
  rw [Hex.padded, String.toList_ofList, Hex.length_digits]

/-- What follows the stem is always of the same length, so a stem that looks like a kept name is not
mistaken for one. -/
theorem keptName_injective {stem other : String} {logId otherId : UInt16}
    (h : keptName stem logId = keptName other otherId) : stem = other ∧ logId = otherId := by
  have hchars := congrArg String.toList h
  simp only [keptName_eq, String.toList_append] at hchars
  obtain ⟨hstem, hrest⟩ := List.append_inj' hchars (by simp [length_padded])
  obtain ⟨hdigits, -⟩ := List.append_inj' hrest rfl
  obtain ⟨-, hdigits⟩ := List.append_inj' hdigits (by simp [length_padded])
  exact ⟨String.toList_inj.mp hstem, Hex.padded_injective .lower (String.toList_inj.mp hdigits)⟩

theorem isFileName_keptName {stem : String} (h : '/' ∉ stem.toList) (logId : UInt16) :
    IsFileName (keptName stem logId) := by
  have hslash : '/' ∉ (Hex.padded .lower 4 logId.toNat).toList :=
    Hex.not_mem_padded (by decide)
  rw [keptName_eq]
  apply IsFileName.of_suffix h
  · simp [String.toList_append, hslash]
  · have hlength : (Hex.padded .lower 4 logId.toNat).length = 4 := length_padded logId
    rw [String.length_append, String.length_append, hlength]
    decide

/-- The names of scratch files: letters and digits between the start for a log id and the ending. -/
def IsScratchName (name : String) : Prop :=
  ∃ logId part, (∀ c ∈ part.toList, c.isAlphanum = true) ∧
    name = namePrefix logId ++ part ++ nameSuffix

theorem not_mem_namePrefix (logId : UInt16) {c : Char} (hhex : Hex.isDigit c = false)
    (hfixed : c ∉ ['f', 'd', 'c', '-']) : c ∉ (namePrefix logId).toList := by
  have hid : c ∉ (Hex.padded .lower 4 logId.toNat).toList := Hex.not_mem_padded hhex
  simp only [List.mem_cons, List.not_mem_nil, or_false, not_or] at hfixed
  simp [namePrefix, String.toList_append, hid, hfixed]

theorem IsScratchName.isFileName {name : String} (h : IsScratchName name) : IsFileName name := by
  obtain ⟨logId, part, hpart, rfl⟩ := h
  refine IsFileName.of_suffix ?_ (by decide) (by decide)
  rw [String.toList_append, List.mem_append, not_or]
  refine ⟨not_mem_namePrefix logId (by decide) (by decide), fun hslash => ?_⟩
  exact absurd (hpart '/' hslash) (by decide)

/-- What stands behind the last dash of a text. -/
theorem append_dash_inj {before other behind rest : List Char} (hbehind : '-' ∉ behind)
    (hrest : '-' ∉ rest) (h : before ++ '-' :: behind = other ++ '-' :: rest) :
    before = other := by
  rcases List.append_eq_append_iff.mp h with ⟨between, rfl, heq⟩ | ⟨between, rfl, heq⟩
  · cases between with
    | nil => rw [List.append_nil]
    | cons c between =>
      rw [List.cons_append, List.cons.injEq] at heq
      exact absurd (heq.2 ▸ List.mem_append_right _ (.head _)) hbehind
  · cases between with
    | nil => rw [List.append_nil]
    | cons c between =>
      rw [List.cons_append, List.cons.injEq] at heq
      exact absurd (heq.2 ▸ List.mem_append_right _ (.head _)) hrest

/-- In front of the last dash a kept name has letters that are no digits of a log id. -/
theorem not_isScratchName_keptName (stem : String) (logId : UInt16) :
    ¬IsScratchName (keptName stem logId) := by
  rintro ⟨otherId, part, hpart, heq⟩
  have hdigits : '-' ∉ (Hex.padded .lower 4 logId.toNat).toList := Hex.not_mem_padded (by decide)
  have hdash : '-' ∉ part.toList := fun hmem => absurd (hpart '-' hmem) (by decide)
  have hchars := congrArg String.toList heq
  simp only [keptName, namePrefix, nameSuffix, String.toList_append] at hchars
  have hfront := (List.append_inj' hchars rfl).1
  replace hfront : (stem.toList ++ ['-'] ++ ['s', 'l', 'i', 'd']) ++ '-'
        :: (Hex.padded .lower 4 logId.toNat).toList
      = (['f', 'f', 'd', 'c', '-'] ++ (Hex.padded .lower 4 otherId.toNat).toList) ++ '-'
        :: part.toList := by
    simpa using hfront
  obtain ⟨-, hid⟩ := List.append_inj' (append_dash_inj hdigits hdash hfront)
    (by rw [length_padded]; rfl)
  have hletter : 's' ∈ (Hex.padded .lower 4 otherId.toNat).toList := hid ▸ .head _
  exact Hex.not_mem_padded (by decide) hletter

/-! ## Scratch files -/

variable {naming : ScratchNaming} {session last : Session} {disk after : Disk}
  {file : AttachmentFile} {files : List AttachmentFile}

/-- A place for a scratch file, in some directory. -/
def IsScratchPlace (place : Place) : Prop :=
  ∃ directory name, IsScratchName name ∧ place = directory ++ [name]

theorem IsScratchPlace.isAnchor {place : Place} (h : IsScratchPlace place) :
    isAnchor place = false := by
  obtain ⟨directory, name, hname, rfl⟩ := h
  exact hname.isFileName.isAnchor_append directory

/-- No path to a file of another name leads to a scratch file. -/
theorem IsScratchPlace.ne_of_follow {place : Place} (h : IsScratchPlace place)
    {folder name : String} (hname : IsFileName name) (hother : ¬IsScratchName name) {found : Place}
    (hfound : disk.follow (join folder name) = .ok found) : place ≠ found := by
  obtain ⟨directory, scratch, hscratch, rfl⟩ := h
  obtain ⟨other, rfl⟩ := follow_join hname hfound
  intro heq
  have hnames := List.singleton_inj.mp (List.append_inj' heq rfl).2
  exact hother (hnames ▸ hscratch)

theorem IsScratchPlace.ne_kept {place : Place} (h : IsScratchPlace place) {stem folder : String}
    (hstem : '/' ∉ stem.toList) {logId : UInt16} {kept : Place}
    (hkept : disk.follow (join folder (keptName stem logId)) = .ok kept) : place ≠ kept :=
  h.ne_of_follow (isFileName_keptName hstem logId) (not_isScratchName_keptName stem logId) hkept

theorem run_create {folder : String} {entry : Entry} {attachment : Bytes} :
    (create folder entry attachment).run naming session
      = let operation := Operation.create folder (namePrefix (entry.logId.getD defaultLogId))
          nameSuffix attachment
        ((operation.run naming session).1.map fun place =>
            ⟨entry.logId.getD defaultLogId, entry.severity, place⟩,
          (operation.run naming session).2) := rfl

/-- A new scratch file is where nothing was, with the attachment in it. -/
theorem create_eq_ok (hnaming : naming.Alphanumeric) {folder : String} {entry : Entry}
    {attachment : Bytes}
    (h : (create folder entry attachment).run naming session = (.ok file, last)) :
    file.logId = entry.logId.getD defaultLogId ∧ file.severity = entry.severity ∧
      IsScratchPlace file.place ∧ session.disk.item? file.place = none ∧
      last.disk = session.disk.set file.place (.file attachment) := by
  rw [run_create, Prod.mk.injEq] at h
  obtain ⟨hfile, rfl⟩ := h
  obtain ⟨place, hplace, rfl⟩ := Outcome.map_eq_ok_iff.mp hfile
  obtain ⟨directory, -, -, hname, hnone, hlast⟩ :=
    Operation.run_create_eq_ok (Prod.ext hplace rfl)
  refine ⟨rfl, rfl, ⟨directory, _, ⟨_, _, ?_, rfl⟩, hname⟩, hnone,
    congrArg Session.disk hlast⟩
  exact hnaming session.named session.disk directory _ _

/-- The attachments of entries with the log ids that name their files. -/
def attached (entries : Entries) : List (UInt16 × Bytes) :=
  entries.filterMap fun entry =>
    entry.attachment.map fun attachment => (entry.logId.getD defaultLogId, attachment)

/-- Scratch files in which contents were written, each where nothing was. -/
structure Created (disk : Disk) (contents : List (UInt16 × Bytes)) (files : List AttachmentFile)
    (after : Disk) : Prop where
  contents : files.map (fun file => (file.logId, file.content after)) = contents
  scratch : ∀ file ∈ files, IsScratchPlace file.place
  places : (files.map (·.place)).Nodup
  empty : ∀ file ∈ files, disk.item? file.place = none
  filled : ∀ file ∈ files, after.item? file.place = some (.file (file.content after))
  others : ∀ place, place ∉ files.map (·.place) → after.item? place = disk.item? place

theorem Created.none (disk : Disk) : Created disk [] [] disk :=
  ⟨rfl, by simp, List.nodup_nil, by simp, by simp, fun _ _ => rfl⟩

theorem content_of_item? {content : Bytes} (h : disk.item? file.place = some (.file content)) :
    file.content disk = content := by
  simp only [AttachmentFile.content, h]

theorem Created.cons {contents : List (UInt16 × Bytes)} {attachment : Bytes}
    (hscratch : IsScratchPlace file.place) (hempty : disk.item? file.place = .none)
    (h : Created (disk.set file.place (.file attachment)) contents files after) :
    Created disk ((file.logId, attachment) :: contents) (file :: files) after := by
  have hself : (disk.set file.place (.file attachment)).item? file.place
      = some (.file attachment) := item?_set_self hscratch.isAnchor _
  have hnew : file.place ∉ files.map (·.place) := by
    intro hmem
    obtain ⟨other, hother, hplace⟩ := List.mem_map.mp hmem
    have hnone := h.empty other hother
    rw [hplace, hself] at hnone
    cases hnone
  have hfilled : after.item? file.place = some (.file attachment) :=
    (h.others file.place hnew).trans hself
  have hcontent : file.content after = attachment := content_of_item? hfilled
  have hne : ∀ other ∈ files, other.place ≠ file.place := fun other hother heq =>
    hnew (List.mem_map.mpr ⟨other, hother, heq⟩)
  constructor
  case contents => rw [List.map_cons, hcontent, h.contents]
  case scratch =>
    intro other hother
    rcases List.mem_cons.mp hother with rfl | hother
    · exact hscratch
    · exact h.scratch other hother
  case places => exact List.nodup_cons.mpr ⟨hnew, h.places⟩
  case empty =>
    intro other hother
    rcases List.mem_cons.mp hother with rfl | hother
    · exact hempty
    · exact (item?_set_of_ne (hne other hother) _).symm.trans (h.empty other hother)
  case filled =>
    intro other hother
    rcases List.mem_cons.mp hother with rfl | hother
    · rw [hcontent, hfilled]
    · exact h.filled other hother
  case others =>
    intro place hplace
    rw [List.map_cons, List.mem_cons, not_or] at hplace
    exact (h.others place hplace.2).trans (item?_set_of_ne hplace.1 _)

/-- The first of the files holds the first of the contents. -/
theorem Created.content_head {logId : UInt16} {attachment : Bytes}
    {contents : List (UInt16 × Bytes)}
    (h : Created disk ((logId, attachment) :: contents) (file :: files) after) :
    file.content after = attachment := by
  have hcontents := h.contents
  rw [List.map_cons, List.cons.injEq, Prod.mk.injEq] at hcontents
  exact hcontents.1.2

/-- Entries without attachments have no file, and what was created is removed when a later file
cannot be made. -/
theorem run_createAll_cons (folder : String) (created : List AttachmentFile) (entry : Entry)
    (rest : Entries) :
    (createAll folder created (entry :: rest)).run naming session
      = match entry.attachment with
        | none => (createAll folder created rest).run naming session
        | some attachment =>
          match (create folder entry attachment).run naming session with
          | (.ok file, mid) => (createAll folder (created ++ [file]) rest).run naming mid
          | (.error error, mid) => (.error error, ((discardAll created).run naming mid).2) := by
  rw [createAll]
  cases entry.attachment with
  | none => rfl
  | some attachment =>
    simp only [Process.run_bind]
    rcases (create folder entry attachment).run naming session with ⟨result, mid⟩
    cases result with
    | ok file => rfl
    | error error =>
      simp only [Process.run_bind]
      rfl

theorem attached_cons_none {entry : Entry} (h : entry.attachment = none) (rest : Entries) :
    attached (entry :: rest) = attached rest :=
  List.filterMap_cons_none (by simp [h])

theorem attached_cons_some {entry : Entry} {attachment : Bytes}
    (h : entry.attachment = some attachment) (rest : Entries) :
    attached (entry :: rest) = (entry.logId.getD defaultLogId, attachment) :: attached rest :=
  List.filterMap_cons_some (by simp [h])

theorem createAll_eq_ok (hnaming : naming.Alphanumeric) {folder : String} {entries : Entries}
    {created : List AttachmentFile}
    (h : (createAll folder created entries).run naming session = (.ok files, last)) :
    ∃ more, files = created ++ more ∧
      Created session.disk (attached entries) more last.disk := by
  induction entries generalizing session created with
  | nil =>
    cases h
    exact ⟨[], (List.append_nil _).symm, .none _⟩
  | cons entry rest ih =>
    rw [run_createAll_cons] at h
    cases hattachment : entry.attachment with
    | none =>
      simp only [hattachment] at h
      rw [attached_cons_none hattachment]
      exact ih h
    | some attachment =>
      simp only [hattachment] at h
      split at h
      next file mid hcreate =>
        obtain ⟨hlogId, -, hscratch, hempty, hmid⟩ := create_eq_ok hnaming hcreate
        obtain ⟨more, rfl, hmore⟩ := ih h
        rw [hmid] at hmore
        refine ⟨file :: more, by rw [List.append_assoc, List.singleton_append], ?_⟩
        rw [attached_cons_some hattachment, ← hlogId]
        exact .cons hscratch hempty hmore
      next => cases h

theorem createIn_eq_ok (hnaming : naming.Alphanumeric) {folder : String} {entries : Entries}
    (h : (createIn folder entries).run naming session = (.ok files, last)) :
    Created session.disk (attached entries) files last.disk := by
  obtain ⟨more, rfl, hmore⟩ := createAll_eq_ok hnaming h
  exact hmore

theorem Created.sameDirectories {contents : List (UInt16 × Bytes)}
    (h : Created disk contents files after) : disk.SameDirectories after := by
  constructor
  · intro place hplace
    rw [h.others place, hplace]
    intro hmem
    obtain ⟨file, hfile, rfl⟩ := List.mem_map.mp hmem
    rw [h.empty file hfile] at hplace
    cases hplace
  · intro place hplace
    rw [← h.others place, hplace]
    intro hmem
    obtain ⟨file, hfile, rfl⟩ := List.mem_map.mp hmem
    rw [h.filled file hfile] at hplace
    cases hplace

/-! ## Repeated log ids -/

/-- Of the attachments under each log id the last one. -/
def lastOf : List (UInt16 × Bytes) → List (UInt16 × Bytes)
  | [] => []
  | kept :: rest => if ∀ later ∈ rest, later.1 ≠ kept.1 then kept :: lastOf rest else lastOf rest

theorem lastOf_sublist (contents : List (UInt16 × Bytes)) : (lastOf contents).Sublist contents := by
  induction contents with
  | nil => exact .slnil
  | cons kept rest ih =>
    rw [lastOf]
    split
    next => exact ih.cons_cons kept
    next => exact ih.cons kept

theorem nodup_lastOf (contents : List (UInt16 × Bytes)) :
    ((lastOf contents).map (·.1)).Nodup := by
  induction contents with
  | nil => exact List.nodup_nil
  | cons kept rest ih =>
    rw [lastOf]
    split
    next hnew =>
      refine List.nodup_cons.mpr ⟨fun hmem => ?_, ih⟩
      obtain ⟨later, hlater, heq⟩ := List.mem_map.mp hmem
      exact hnew later ((lastOf_sublist rest).subset hlater) heq
    next => exact ih

theorem lastOf_eq_self {contents : List (UInt16 × Bytes)} (h : (contents.map (·.1)).Nodup) :
    lastOf contents = contents := by
  induction contents with
  | nil => rfl
  | cons kept rest ih =>
    rw [List.map_cons, List.nodup_cons] at h
    have hnew : ∀ later ∈ rest, later.1 ≠ kept.1 := fun later hlater heq =>
      h.1 (List.mem_map.mpr ⟨later, hlater, heq⟩)
    rw [lastOf, if_pos hnew, ih h.2]

theorem exists_mem_lastOf {contents : List (UInt16 × Bytes)} {kept : UInt16 × Bytes}
    (h : kept ∈ contents) : ∃ last ∈ lastOf contents, last.1 = kept.1 := by
  induction contents generalizing kept with
  | nil => cases h
  | cons first rest ih =>
    rw [lastOf]
    by_cases hnew : ∀ later ∈ rest, later.1 ≠ first.1
    · rw [if_pos hnew]
      rcases List.mem_cons.mp h with rfl | h
      · exact ⟨kept, .head _, rfl⟩
      · obtain ⟨last, hlast, heq⟩ := ih h
        exact ⟨last, .tail _ hlast, heq⟩
    · rw [if_neg hnew]
      rcases List.mem_cons.mp h with rfl | h
      · -- A later one takes the place of the first, and the last of these stays.
        simp only [ne_eq, not_forall, not_not] at hnew
        obtain ⟨later, hlater, heq⟩ := hnew
        obtain ⟨last, hlast, hlast'⟩ := ih hlater
        exact ⟨last, hlast, hlast'.trans heq⟩
      · exact ih h

theorem exists_split_of_mem_lastOf {contents : List (UInt16 × Bytes)} {kept : UInt16 × Bytes}
    (h : kept ∈ lastOf contents) :
    ∃ before behind, contents = before ++ kept :: behind ∧
      ∀ later ∈ behind, later.1 ≠ kept.1 := by
  induction contents with
  | nil => cases h
  | cons first rest ih =>
    rw [lastOf] at h
    by_cases hnew : ∀ later ∈ rest, later.1 ≠ first.1
    · rw [if_pos hnew] at h
      rcases List.mem_cons.mp h with rfl | h
      · exact ⟨[], rest, rfl, hnew⟩
      · obtain ⟨before, behind, rfl, hbehind⟩ := ih h
        exact ⟨first :: before, behind, rfl, hbehind⟩
    · rw [if_neg hnew] at h
      obtain ⟨before, behind, rfl, hbehind⟩ := ih h
      exact ⟨first :: before, behind, rfl, hbehind⟩

/-! ## Kept files -/

section

variable {folder stem : String}

/-- The file in which an attachment is kept. -/
def keptFile (folder : String) (hstem : '/' ∉ stem.toList) (kept : UInt16 × Bytes) : NamedFile where
  folder
  name := keptName stem kept.1
  content := kept.2
  isFileName := isFileName_keptName hstem kept.1

theorem path_keptFile (folder : String) (hstem : '/' ∉ stem.toList) (kept : UInt16 × Bytes) :
    (keptFile folder hstem kept).path = join folder (keptName stem kept.1) := rfl

/-- The path to which a file is moved. -/
def keptPath (folder stem : String) (file : AttachmentFile) : String :=
  join folder (keptName stem file.logId)

/-- Files moved one after another to where they are kept. A later file may take the place of an
earlier one of its log id; nothing is left behind. -/
structure MovedInTurn (folder stem : String) (disk : Disk) (files : List AttachmentFile)
    (after : Disk) : Prop where
  kept : ∀ before file behind, files = before ++ file :: behind →
    (∀ later ∈ behind, later.logId ≠ file.logId) →
    ∃ place, disk.follow (file.keptPath folder stem) = .ok place ∧
      after.item? place = some (.file (file.content disk))
  gone : ∀ file ∈ files, after.item? file.place = none
  others : ∀ place, (∀ file ∈ files, file.place ≠ place ∧
    disk.follow (file.keptPath folder stem) ≠ .ok place) → after.item? place = disk.item? place
  directories : disk.SameDirectories after

theorem MovedInTurn.of_persist (hstem : '/' ∉ stem.toList) (hscratch : IsScratchPlace file.place)
    {u : Unit}
    (h : (file.persist (file.keptPath folder stem)).run naming session = (.ok u, last)) :
    MovedInTurn folder stem session.disk [file] last.disk := by
  rw [persist, Process.run_perform] at h
  obtain ⟨place, content, hplace, hitem, htarget, rfl⟩ := Operation.run_move_eq_ok h
  have hne : file.place ≠ place := hscratch.ne_kept hstem hplace
  have hfile : session.disk.item? file.place ≠ some .directory := by simp [hitem]
  constructor
  case kept =>
    intro before moved behind hsplit _
    have hmoved : moved ∈ [file] := by simp [hsplit]
    cases List.mem_singleton.mp hmoved
    refine ⟨place, hplace, ?_⟩
    rw [item?_set_self (isAnchor_of_item?_ne htarget), content_of_item? hitem]
  case gone =>
    intro moved hmoved
    cases List.mem_singleton.mp hmoved
    rw [item?_set_of_ne hne, item?_remove_self hscratch.isAnchor]
  case others =>
    intro other hother
    obtain ⟨hplace', hkept⟩ := hother file (by simp)
    have hother' : other ≠ place := by
      rintro rfl
      exact hkept hplace
    rw [item?_set_of_ne hother', item?_remove_of_ne hplace'.symm]
  case directories =>
    exact (sameDirectories_remove hfile).trans (sameDirectories_set htarget _)

/-- Where a file is kept nothing is moved under other log ids, and no scratch file is there. -/
theorem MovedInTurn.untouched {mid : Disk} {logId : UInt16} {place : Place}
    (hstem : '/' ∉ stem.toList) (hscratches : ∀ other ∈ files, IsScratchPlace other.place)
    (h : MovedInTurn folder stem mid files after)
    (hfollow : disk.follow (join folder (keptName stem logId)) = .ok place)
    (hlogId : ∀ other ∈ files, other.logId ≠ logId) : after.item? place = mid.item? place := by
  refine h.others place fun other hother => ⟨?_, fun hother' => ?_⟩
  · exact (hscratches other hother).ne_kept hstem hfollow
  · have hnames : keptName stem logId ≠ keptName stem other.logId := fun heq =>
      hlogId other hother (keptName_injective heq).2.symm
    exact place_ne_of_name_ne (isFileName_keptName hstem _) (isFileName_keptName hstem _) hnames
      hfollow hother' rfl

/-- Moving more files does not touch what was moved, unless for its log id. -/
theorem MovedInTurn.cons {mid : Disk} (hstem : '/' ∉ stem.toList)
    (hscratch : IsScratchPlace file.place)
    (hscratches : ∀ other ∈ files, IsScratchPlace other.place)
    (hplace : ∀ other ∈ files, other.place ≠ file.place)
    (h : MovedInTurn folder stem disk [file] mid) (h' : MovedInTurn folder stem mid files after) :
    MovedInTurn folder stem disk (file :: files) after := by
  have hsame : ∀ other ∈ files, mid.item? other.place = disk.item? other.place := by
    intro other hother
    apply h.others
    intro moved hmoved
    cases List.mem_singleton.mp hmoved
    refine ⟨(hplace other hother).symm, fun hfollow => ?_⟩
    exact (hscratches other hother).ne_kept hstem hfollow rfl
  constructor
  case kept =>
    intro before moved behind hsplit hlogId
    cases before with
    | nil =>
      rw [List.nil_append, List.cons.injEq] at hsplit
      obtain ⟨rfl, rfl⟩ := hsplit
      obtain ⟨place, hfollow, hitem⟩ := h.kept [] file [] rfl (by simp)
      exact ⟨place, hfollow, (h'.untouched hstem hscratches hfollow hlogId).trans hitem⟩
    | cons first before =>
      rw [List.cons_append, List.cons.injEq] at hsplit
      have hmoved : moved ∈ files := by simp [hsplit.2]
      obtain ⟨place, hfollow, hitem⟩ := h'.kept before moved behind hsplit.2 hlogId
      have hcontent : moved.content mid = moved.content disk := by
        simp only [content, hsame moved hmoved]
      rw [hcontent] at hitem
      exact ⟨place, h.directories.follow_iff.mpr hfollow, hitem⟩
  case gone =>
    intro moved hmoved
    rcases List.mem_cons.mp hmoved with rfl | hmoved
    · refine (h'.others _ fun other hother => ⟨hplace other hother, fun hfollow => ?_⟩).trans
        (h.gone moved (by simp))
      exact hscratch.ne_kept hstem hfollow rfl
    · exact h'.gone moved hmoved
  case others =>
    intro place hfree
    have hmid : mid.item? place = disk.item? place :=
      h.others place fun moved hmoved => hfree moved (by simp_all)
    rw [← hmid]
    apply h'.others
    intro other hother
    obtain ⟨hother', hfollow⟩ := hfree other (List.mem_cons_of_mem _ hother)
    exact ⟨hother', fun heq => hfollow (h.directories.follow_iff.mpr heq)⟩
  case directories => exact h.directories.trans h'.directories

theorem run_persistAll_cons (file : AttachmentFile) (rest : List AttachmentFile) :
    (persistAll folder stem (file :: rest)).run naming session
      = match (file.persist (file.keptPath folder stem)).run naming session with
        | (.ok _, mid) =>
          (((persistAll folder stem rest).run naming mid).1.map (file.keptPath folder stem :: ·),
            ((persistAll folder stem rest).run naming mid).2)
        | (.error error, mid) =>
          (.error error, ((discardAll (file :: rest)).run naming mid).2) := by
  rw [persistAll]
  simp only [Process.run_bind]
  rw [← keptPath]
  rcases (file.persist (file.keptPath folder stem)).run naming session with ⟨result, mid⟩
  cases result with
  | ok u =>
    simp only [Process.run_bind]
    rfl
  | error error =>
    simp only [Process.run_bind]
    rfl

theorem persistAll_eq_ok (hstem : '/' ∉ stem.toList) {paths : List String}
    (hscratch : ∀ file ∈ files, IsScratchPlace file.place) (hplaces : (files.map (·.place)).Nodup)
    (h : (persistAll folder stem files).run naming session = (.ok paths, last)) :
    MovedInTurn folder stem session.disk files last.disk ∧
      paths = files.map (keptPath folder stem) := by
  induction files generalizing session paths with
  | nil =>
    cases h
    exact ⟨⟨by simp, by simp, fun _ _ => rfl, .refl _⟩, rfl⟩
  | cons file rest ih =>
    simp only [List.map_cons, List.nodup_cons, List.mem_map, not_exists, not_and] at hplaces
    rw [run_persistAll_cons] at h
    split at h
    next u mid hpersist =>
      rw [Prod.mk.injEq] at h
      obtain ⟨hpaths, rfl⟩ := h
      obtain ⟨others, hothers, rfl⟩ := Outcome.map_eq_ok_iff.mp hpaths
      have hfirst := MovedInTurn.of_persist hstem (hscratch file (by simp)) hpersist
      have hscratches : ∀ other ∈ rest, IsScratchPlace other.place := fun other hother =>
        hscratch other (by simp [hother])
      obtain ⟨hrest, rfl⟩ := ih hscratches hplaces.2 (Prod.ext hothers rfl)
      exact ⟨.cons hstem (hscratch file (by simp)) hscratches hplaces.1 hfirst hrest, rfl⟩
    next => cases h

/-- Of attachments that were written to scratch files and then moved, the last of each log id has
been received, and the scratch files are forgotten. -/
theorem Created.received {mid : Disk} {contents : List (UInt16 × Bytes)}
    (hstem : '/' ∉ stem.toList) (h : Created disk contents files mid)
    (h' : MovedInTurn folder stem mid files after) :
    disk.Received ((lastOf contents).map (keptFile folder hstem)) after := by
  have hsame := h.sameDirectories
  constructor
  case content =>
    intro kept hkept
    obtain ⟨last, hlast, rfl⟩ := List.mem_map.mp hkept
    obtain ⟨before, behind, hsplit, hbehind⟩ := exists_split_of_mem_lastOf hlast
    rw [← h.contents] at hsplit
    obtain ⟨front, back, rfl, -, hback⟩ := List.map_eq_append_iff.mp hsplit
    obtain ⟨file, back, rfl, rfl, rfl⟩ := List.map_eq_cons_iff.mp hback
    have hlater : ∀ later ∈ back, later.logId ≠ file.logId := fun later hlater =>
      hbehind _ (List.mem_map.mpr ⟨later, hlater, rfl⟩)
    obtain ⟨place, hplace, hitem⟩ := h'.kept front file back rfl hlater
    exact ⟨place, hsame.follow_iff.mpr hplace, hitem⟩
  case others =>
    intro place hfree
    by_cases hscratch : place ∈ files.map (·.place)
    · obtain ⟨file, hfile, rfl⟩ := List.mem_map.mp hscratch
      rw [h'.gone file hfile, h.empty file hfile]
    · rw [h'.others place, h.others place hscratch]
      intro file hfile
      refine ⟨fun heq => hscratch (List.mem_map.mpr ⟨file, hfile, heq⟩), fun hfollow => ?_⟩
      have hmem : (file.logId, file.content mid) ∈ contents := by
        rw [← h.contents]
        exact List.mem_map.mpr ⟨file, hfile, rfl⟩
      -- The last file of this log id goes to the same place.
      obtain ⟨last, hlast, hlogId⟩ := exists_mem_lastOf hmem
      refine hfree _ (List.mem_map.mpr ⟨last, hlast, rfl⟩) (hsame.follow_iff.mpr ?_)
      rwa [keptPath, show file.logId = last.1 from hlogId.symm] at hfollow
  case directories => exact hsame.trans h'.directories

end

end AttachmentFile

end FirstFailure
