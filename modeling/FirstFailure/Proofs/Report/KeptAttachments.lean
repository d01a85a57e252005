import FirstFailure.Proofs.Report.AttachmentFiles
/-!
# Which attachments are kept

Every attachment has a scratch file of its own. When the files are moved each gets the name of its
log id, so of the attachments under one log id the last one stays. Hence every attachment is found
in a file of its own exactly when their log ids are different; an entry without a log id counts as
one with the default.
-/

namespace FirstFailure.AttachmentFile

open Disk

variable {naming : ScratchNaming} {session between last : Session} {disk mid after : Disk}
  {out : Place} {scratch folder stem : String} {entries : Entries} {files : List AttachmentFile}
  {contents : List (UInt16 × Bytes)} {paths : List String}

/-! ## Scratch files of entries -/

/-- A file for an entry, with its severity and its attachment. -/
structure Holds (disk : Disk) (entry : Entry) (file : AttachmentFile) : Prop where
  logId : file.logId = entry.logId.getD defaultLogId
  severity : file.severity = entry.severity
  attachment : ∃ content, entry.attachment = some content ∧
    disk.item? file.place = some (.file content)

/-- One file for each entry with an attachment, in the order of the entries. -/
structure HoldsAll (disk after : Disk) (entries : Entries) (files : List AttachmentFile) :
    Prop where
  in_order : List.Forall₂ (Holds after) (entries.filter (·.attachment.isSome)) files
  places : (files.map (·.place)).Nodup
  others : ∀ place, place ∉ files.map (·.place) → after.item? place = disk.item? place

theorem createAll_in_order (hnaming : naming.Alphanumeric) {created : List AttachmentFile}
    (h : (createAll folder created entries).run naming session = (.ok files, last)) :
    ∃ more, files = created ++ more ∧
      List.Forall₂ (Holds last.disk) (entries.filter (·.attachment.isSome)) more := by
  induction entries generalizing session created with
  | nil =>
    cases h
    exact ⟨[], (List.append_nil _).symm, .nil⟩
  | cons entry rest ih =>
    rw [run_createAll_cons] at h
    cases hattachment : entry.attachment with
    | none =>
      simp only [hattachment] at h
      rw [List.filter_cons_of_neg (by simp [hattachment])]
      exact ih h
    | some attachment =>
      simp only [hattachment] at h
      split at h
      next file mid hcreate =>
        obtain ⟨hlogId, hseverity, hscratch, hempty, hmid⟩ := create_eq_ok hnaming hcreate
        obtain ⟨more, rfl, hmore⟩ := ih h
        obtain ⟨same, hsame, hcreated⟩ := createAll_eq_ok hnaming h
        cases List.append_cancel_left hsame
        rw [hmid] at hcreated
        have hcons := Created.cons hscratch hempty hcreated
        have hfilled := hcons.filled file (by simp)
        rw [hcons.content_head] at hfilled
        refine ⟨file :: more, by rw [List.append_assoc, List.singleton_append], ?_⟩
        rw [List.filter_cons_of_pos (by simp [hattachment])]
        exact .cons ⟨hlogId, hseverity, attachment, hattachment, hfilled⟩ hmore
      next => cases h

theorem holdsAll_of_createIn (hnaming : naming.Alphanumeric)
    (h : (createIn scratch entries).run naming session = (.ok files, between)) :
    HoldsAll session.disk between.disk entries files := by
  have hcreated := createIn_eq_ok hnaming h
  obtain ⟨more, rfl, hmore⟩ := createAll_in_order hnaming h
  exact ⟨hmore, hcreated.places, hcreated.others⟩

/-! ## Stems with slashes -/

/-- What stands before the last slash of a stem is a part of the folder. -/
theorem exists_folder (folder stem : String) :
    ∃ target base, '/' ∉ base.toList ∧
      ∀ logId, join folder (keptName stem logId) = join target (keptName base logId) := by
  obtain ⟨before, base, rfl, hbefore, hbase⟩ := exists_lastName stem
  refine ⟨join folder before, base, hbase, fun logId => ?_⟩
  rw [← join_append hbefore (isFileName_keptName hbase logId).no_slash, keptName_eq, keptName_eq,
    String.append_assoc]

theorem persistAll_congr {target base : String}
    (h : ∀ logId, join folder (keptName stem logId) = join target (keptName base logId))
    (files : List AttachmentFile) :
    persistAll folder stem files = persistAll target base files := by
  induction files with
  | nil => rfl
  | cons file rest ih =>
    unfold persistAll
    simp only [h, ih]

/-! ## Kept files -/

/-- Attachments in files of their own in a directory that has nothing else in it. -/
structure Keeps (disk : Disk) (directory : Place) (attachments : List Bytes)
    (paths names : List String) : Prop where
  own : names.Nodup
  count : names.length = attachments.length
  places : paths.map disk.follow = names.map fun name => .ok (directory ++ [name])
  contents : paths.map disk.readFile = attachments.map .ok
  listed : disk.Lists directory (names.zip attachments)

/-- What becomes of attachments that are moved to an empty directory. -/
structure KeptIn (disk : Disk) (folder stem : String) (out : Place)
    (contents : List (UInt16 × Bytes)) (paths : List String) (after : Disk) : Prop where
  /-- The paths are those of the stem and the log ids, in order. -/
  paths_eq : paths = contents.map fun kept => join folder (keptName stem kept.1)
  /-- Under each log id the last attachment is found. -/
  last : ∀ kept ∈ lastOf contents,
    after.readFile (join folder (keptName stem kept.1)) = .ok kept.2
  /-- All attachments are found exactly when their log ids are different, and the stem does not lead
  out of the directory. -/
  own_iff : (∃ names, Keeps after out (contents.map (·.2)) paths names) ↔
    (contents.map (·.1)).Nodup ∧ ∀ path ∈ paths, ∃ name, disk.follow path = .ok (out ++ [name])
  /-- A stem without slashes leads into the directory. -/
  inside : '/' ∉ stem.toList → ∀ path ∈ paths, ∃ name, disk.follow path = .ok (out ++ [name])
  /-- Then the directory has one file for each log id. -/
  listed : '/' ∉ stem.toList →
    after.Lists out ((lastOf contents).map fun kept => (keptName stem kept.1, kept.2))
  /-- Nothing else is different. -/
  others : ∀ place, (∀ path ∈ paths, disk.follow path ≠ .ok place) →
    after.item? place = disk.item? place

theorem nodup_keptNames (stem : String) (h : (contents.map (·.1)).Nodup) :
    (contents.map fun kept => keptName stem kept.1).Nodup := by
  have hnames : ((contents.map (·.1)).map (keptName stem)).Nodup :=
    h.map fun _ _ heq => (keptName_injective heq).2
  rwa [List.map_map] at hnames

/-- Files in places of their own have different log ids. -/
theorem Keeps.nodup {attachments : List Bytes} {names : List String}
    (h : Keeps after out attachments (contents.map fun kept => join folder (keptName stem kept.1))
      names) : (contents.map (·.1)).Nodup := by
  have hplaces : (names.map fun name => (.ok (out ++ [name]) : Except DiskError Place)).Nodup :=
    h.own.map fun _ _ heq => by simpa using heq
  rw [← h.places, List.map_map] at hplaces
  have hids : ((contents.map (·.1)).map fun logId =>
      after.follow (join folder (keptName stem logId))).Nodup := by
    rw [List.map_map]
    exact hplaces
  exact hids.of_map _

section

variable {target base : String} {hbase : '/' ∉ base.toList}

theorem received_of_persistAll (hbase : '/' ∉ base.toList)
    (hcreated : Created disk contents files between.disk)
    (h : (persistAll target base files).run naming between = (.ok paths, last)) :
    disk.Received ((lastOf contents).map (keptFile target hbase)) last.disk ∧
      paths = contents.map fun kept => join target (keptName base kept.1) := by
  obtain ⟨hmoved, rfl⟩ := persistAll_eq_ok hbase hcreated.scratch hcreated.places h
  refine ⟨hcreated.received hbase hmoved, ?_⟩
  rw [← hcreated.contents, List.map_map]
  rfl

theorem readFile_of_received
    (h : disk.Received ((lastOf contents).map (keptFile target hbase)) after)
    {kept : UInt16 × Bytes} (hkept : kept ∈ lastOf contents) :
    after.readFile (join target (keptName base kept.1)) = .ok kept.2 := by
  have hread := h.readFile (List.mem_map_of_mem hkept)
  rw [path_keptFile] at hread
  exact hread

theorem exists_follow_of_received
    (h : disk.Received ((lastOf contents).map (keptFile target hbase)) after)
    {kept : UInt16 × Bytes} (hkept : kept ∈ contents) :
    ∃ place, disk.follow (join target (keptName base kept.1)) = .ok place := by
  obtain ⟨last, hlast, hlogId⟩ := exists_mem_lastOf hkept
  obtain ⟨place, hfollow, -⟩ := h.content _ (List.mem_map.mpr ⟨last, hlast, rfl⟩)
  refine ⟨place, ?_⟩
  rw [← hlogId]
  exact hfollow

theorem lists_of_received (h : disk.Received ((lastOf contents).map (keptFile target hbase)) after)
    (hempty : disk.Lists out [])
    (hplaces : ∀ kept ∈ contents,
      disk.follow (join target (keptName base kept.1)) = .ok (out ++ [keptName base kept.1])) :
    after.Lists out ((lastOf contents).map fun kept => (keptName base kept.1, kept.2)) := by
  have hnames : (((lastOf contents).map (keptFile target hbase)).map (·.name)).Nodup := by
    rw [List.map_map]
    exact nodup_keptNames base (nodup_lastOf contents)
  have hlists := h.lists hempty hnames fun file hfile => by
    obtain ⟨kept, hkept, rfl⟩ := List.mem_map.mp hfile
    exact hplaces kept ((lastOf_sublist contents).subset hkept)
  rw [List.map_map] at hlists
  exact hlists

theorem keeps_of_received (h : disk.Received ((lastOf contents).map (keptFile target hbase)) after)
    (hempty : disk.Lists out []) (hlogIds : (contents.map (·.1)).Nodup)
    (hplaces : ∀ kept ∈ contents,
      disk.follow (join target (keptName base kept.1)) = .ok (out ++ [keptName base kept.1])) :
    Keeps after out (contents.map (·.2))
      (contents.map fun kept => join target (keptName base kept.1))
      (contents.map fun kept => keptName base kept.1) := by
  have hlast := lastOf_eq_self hlogIds
  constructor
  case own => exact nodup_keptNames base hlogIds
  case count => rw [List.length_map, List.length_map]
  case places =>
    rw [List.map_map, List.map_map]
    apply List.map_congr_left
    intro kept hkept
    exact h.directories.follow_iff.mp (hplaces kept hkept)
  case contents =>
    rw [List.map_map, List.map_map]
    apply List.map_congr_left
    intro kept hkept
    exact readFile_of_received h (hlast.symm ▸ hkept)
  case listed =>
    have hlisted := lists_of_received h hempty hplaces
    rwa [List.zip_map', ← hlast]

end

theorem places_of_received {hstem : '/' ∉ stem.toList} (hfolder : disk.follow folder = .ok out)
    (h : disk.Received ((lastOf contents).map (keptFile folder hstem)) after) :
    ∀ kept ∈ contents,
      disk.follow (join folder (keptName stem kept.1)) = .ok (out ++ [keptName stem kept.1]) := by
  intro kept hkept
  obtain ⟨place, hfollow⟩ := exists_follow_of_received h hkept
  rw [hfollow, follow_join_of_follow (isFileName_keptName hstem kept.1) hfolder hfollow]

/-- Attachments in scratch files that are moved to an empty directory. -/
theorem keptIn_of_persistAll (hcreated : Created disk contents files between.disk)
    (hfolder : disk.follow folder = .ok out) (hempty : disk.Lists out [])
    (h : (persistAll folder stem files).run naming between = (.ok paths, last)) :
    KeptIn disk folder stem out contents paths last.disk := by
  obtain ⟨target, base, hbase, hjoin⟩ := exists_folder folder stem
  have h' := h
  rw [persistAll_congr hjoin] at h'
  obtain ⟨hreceived, hpaths⟩ := received_of_persistAll hbase hcreated h'
  constructor
  case paths_eq =>
    rw [hpaths]
    simp only [hjoin]
  case last =>
    intro kept hkept
    rw [hjoin]
    exact readFile_of_received hreceived hkept
  case own_iff =>
    constructor
    · intro ⟨names, hkeeps⟩
      refine ⟨Keeps.nodup (hpaths ▸ hkeeps), fun path hpath => ?_⟩
      have hplace : last.disk.follow path ∈ paths.map last.disk.follow :=
        List.mem_map_of_mem hpath
      rw [hkeeps.places] at hplace
      obtain ⟨name, -, hname⟩ := List.mem_map.mp hplace
      exact ⟨name, hreceived.directories.follow_iff.mpr hname.symm⟩
    · intro ⟨hlogIds, hinside⟩
      refine ⟨_, hpaths ▸ keeps_of_received hreceived hempty hlogIds fun kept hkept => ?_⟩
      obtain ⟨name, hfollow⟩ := hinside _ (hpaths ▸ List.mem_map.mpr ⟨kept, hkept, rfl⟩)
      obtain ⟨directory, hplace⟩ := follow_join (isFileName_keptName hbase kept.1) hfollow
      rw [hfollow, hplace, (List.append_inj' hplace rfl).1]
  case inside =>
    intro hstem path hpath
    obtain ⟨hreceived, rfl⟩ := received_of_persistAll hstem hcreated h
    obtain ⟨kept, hkept, rfl⟩ := List.mem_map.mp hpath
    exact ⟨_, places_of_received hfolder hreceived kept hkept⟩
  case listed =>
    intro hstem
    obtain ⟨hreceived, -⟩ := received_of_persistAll hstem hcreated h
    exact lists_of_received hreceived hempty (places_of_received hfolder hreceived)
  case others =>
    intro place hplace
    apply hreceived.others
    intro file hfile hfollow
    obtain ⟨kept, hkept, rfl⟩ := List.mem_map.mp hfile
    refine hplace _ ?_ hfollow
    rw [hpaths]
    exact List.mem_map.mpr ⟨kept, (lastOf_sublist contents).subset hkept, rfl⟩

/-- Every attachment has a scratch file of its own, whatever letters and digits are in the names of
these. After the move to an empty directory every attachment is found there in a file of its own
exactly when the log ids are different and the stem does not lead elsewhere. -/
theorem attachments_kept (hnaming : naming.Alphanumeric)
    (h : (createIn scratch entries).run naming session = (.ok files, between)) :
    HoldsAll session.disk between.disk entries files ∧
      ∀ folder out, session.disk.follow folder = .ok out → session.disk.Lists out [] →
        ∀ stem paths last, (persistAll folder stem files).run naming between = (.ok paths, last) →
          KeptIn session.disk folder stem out (attached entries) paths last.disk := by
  refine ⟨holdsAll_of_createIn hnaming h, ?_⟩
  intro folder out hfolder hempty stem paths last hpersist
  exact keptIn_of_persistAll (createIn_eq_ok hnaming h) hfolder hempty hpersist

/-- A scratch directory and an output directory. -/
def twoDirectories : Disk := ⟨[(["scratch"], .directory), (["out"], .directory)]⟩

theorem lists_twoDirectories : twoDirectories.Lists ["out"] [] := by
  constructor
  case isDirectory => decide
  case names => exact List.nodup_nil
  case isFileName => simp
  case item_iff =>
    intro name hname item
    have hanchor := hname.isAnchor_append ["out"]
    rw [item?, hanchor]
    simp [twoDirectories]

/-- Entries with attachments under two log ids, and one without an attachment between them. -/
def twoAttachments (first second : Option UInt16) : Entries := [
  { message := "first", severity := .unrecoverable, logId := first, userData := [], callouts := []
    attachment := some [0xaa] },
  { message := "none", severity := .recovered, userData := [], callouts := [] },
  { message := "second", severity := .predictive, logId := second, userData := [], callouts := []
    attachment := some [0xbb] }]

/-- Two log ids, one of them absent: both attachments are found. -/
theorem attachments_kept_two_ids :
    ScratchNaming.serial.Alphanumeric ∧ ∃ files between paths last,
      (createIn "scratch" (twoAttachments none (some 0x10))).run .serial { disk := twoDirectories }
        = (.ok files, between) ∧
      HoldsAll twoDirectories between.disk (twoAttachments none (some 0x10)) files ∧
      (persistAll "out" "log" files).run .serial between = (.ok paths, last) ∧
      ∃ names, Keeps last.disk ["out"] [[0xaa], [0xbb]] paths names := by
  have hcreate : (createIn "scratch" (twoAttachments none (some 0x10))).run .serial
      { disk := twoDirectories } = (.ok
        [⟨0, .unrecoverable, ["scratch", "ffdc-0000-0.bin"]⟩,
          ⟨0x10, .predictive, ["scratch", "ffdc-0010-0.bin"]⟩],
        { disk := ⟨twoDirectories.items ++ [(["scratch", "ffdc-0000-0.bin"], .file [0xaa]),
          (["scratch", "ffdc-0010-0.bin"], .file [0xbb])]⟩, named := 2 }) := by decide +kernel
  obtain ⟨hholds, hkept⟩ := attachments_kept ScratchNaming.serial_alphanumeric hcreate
  have hfolder : twoDirectories.follow "out" = .ok ["out"] := by decide +kernel
  have hkeeps := hkept "out" ["out"] hfolder lists_twoDirectories "log"
    ["out/log-slid-0000.bin", "out/log-slid-0010.bin"]
    { disk := ⟨twoDirectories.items ++ [(["out", "log-slid-0000.bin"], .file [0xaa]),
      (["out", "log-slid-0010.bin"], .file [0xbb])]⟩, named := 2 } (by decide +kernel)
  refine ⟨ScratchNaming.serial_alphanumeric, _, _, _, _, hcreate, hholds, by decide +kernel,
    hkeeps.own_iff.mpr ⟨by decide, ?_⟩⟩
  exact hkeeps.inside (by decide)

/-- Two attachments under one log id: the move succeeds and tells one path twice, and only the
second attachment is in the directory. -/
theorem attachments_lost :
    ∃ files between paths last,
      (createIn "scratch" (twoAttachments (some 0x10) (some 0x10))).run .serial
        { disk := twoDirectories } = (.ok files, between) ∧
      twoDirectories.follow "out" = .ok ["out"] ∧ twoDirectories.Lists ["out"] [] ∧
      (persistAll "out" "log" files).run .serial between = (.ok paths, last) ∧
      paths = ["out/log-slid-0010.bin", "out/log-slid-0010.bin"] ∧
      last.disk.Lists ["out"] [("log-slid-0010.bin", [0xbb])] ∧
      ¬ ∃ names, Keeps last.disk ["out"] [[0xaa], [0xbb]] paths names := by
  have hcreate : (createIn "scratch" (twoAttachments (some 0x10) (some 0x10))).run .serial
      { disk := twoDirectories } = (.ok
        [⟨0x10, .unrecoverable, ["scratch", "ffdc-0010-0.bin"]⟩,
          ⟨0x10, .predictive, ["scratch", "ffdc-0010-1.bin"]⟩],
        { disk := ⟨twoDirectories.items ++ [(["scratch", "ffdc-0010-0.bin"], .file [0xaa]),
          (["scratch", "ffdc-0010-1.bin"], .file [0xbb])]⟩, named := 2 }) := by decide +kernel
  have hfolder : twoDirectories.follow "out" = .ok ["out"] := by decide +kernel
  have hpersist : (persistAll "out" "log"
      [⟨0x10, .unrecoverable, ["scratch", "ffdc-0010-0.bin"]⟩,
        ⟨0x10, .predictive, ["scratch", "ffdc-0010-1.bin"]⟩]).run .serial
      { disk := ⟨twoDirectories.items ++ [(["scratch", "ffdc-0010-0.bin"], .file [0xaa]),
        (["scratch", "ffdc-0010-1.bin"], .file [0xbb])]⟩, named := 2 }
      = (.ok ["out/log-slid-0010.bin", "out/log-slid-0010.bin"],
        { disk := ⟨twoDirectories.items ++ [(["out", "log-slid-0010.bin"], .file [0xbb])]⟩,
          named := 2 }) := by
    decide +kernel
  have hcreated := createIn_eq_ok ScratchNaming.serial_alphanumeric hcreate
  have hlisted := (keptIn_of_persistAll hcreated hfolder lists_twoDirectories hpersist).listed
    (by decide)
  refine ⟨_, _, _, _, hcreate, hfolder, lists_twoDirectories, hpersist, rfl, hlisted, ?_⟩
  intro ⟨names, hkeeps⟩
  -- One file is there, and two would be needed.
  have hcount : names.length = 2 := hkeeps.count
  have hlength := (hkeeps.listed.perm hlisted).length_eq
  rw [List.length_zip, hcount] at hlength
  exact absurd hlength (by decide)

end FirstFailure.AttachmentFile
