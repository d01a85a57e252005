import FirstFailure.Proofs.Report.Entries
/-!
# Attachments lose nothing

When raw packages are attached, the attachment of an entry holds the chunks of its log id one behind
the other, whether their packages could be decoded or not. A chunk differs from what stands in the
response in its severity byte at most, which takes the value of the level that it stands for. So the
attachments together are as long as the region but for its tail, and an attachment read as a region
of its own gives back the group of its entry.
-/

namespace FirstFailure

namespace Package

/-! ## Chunks and their packages -/

/-- A chunk with the severity byte of the level that its own severity byte stands for. -/
def canonical (chunk : Bytes) : Bytes :=
  chunk.set 10 (Severity.ofRaw (chunk.getD 10 0)).raw

/-- The chunks whose packages have a log id, in their order. -/
def chunksOf (logId : UInt16) (chunks : List Bytes) : List Bytes :=
  chunks.filter fun chunk => (ofChunk chunk).logId = logId

theorem isChunk_of_mem_chunksOf (logId : UInt16) {chunks : List Bytes}
    (h : ∀ chunk ∈ chunks, IsChunk chunk) : ∀ chunk ∈ chunksOf logId chunks, IsChunk chunk :=
  fun chunk hchunk => h chunk (List.mem_filter.mp hchunk).1

theorem ofLogId_map_ofChunk (logId : UInt16) (chunks : List Bytes) :
    Groups.ofLogId logId (chunks.map ofChunk) = (chunksOf logId chunks).map ofChunk := by
  rw [Groups.ofLogId, List.filter_map]
  rfl

@[simp] theorem length_canonical (chunk : Bytes) : (canonical chunk).length = chunk.length :=
  List.length_set

/-- A canonical chunk is the wire form of the same package. -/
theorem IsChunk.canonical {chunk : Bytes} (h : IsChunk chunk) :
    IsChunk (canonical chunk) ∧ ofChunk (canonical chunk) = ofChunk chunk :=
  isChunk_of_encode (encode_ofChunk h)

/-- No package of a chunk is left out. -/
theorem rawBytes_map_ofChunk {chunks : List Bytes} (h : ∀ chunk ∈ chunks, IsChunk chunk) :
    rawBytes (chunks.map ofChunk) = chunks.flatMap canonical := by
  induction chunks with
  | nil => rfl
  | cons chunk rest ih =>
    have hchunk : (ofChunk chunk).encode = .ok (canonical chunk) :=
      encode_ofChunk (h chunk (by simp))
    have hrest := ih fun c hc => h c (by simp [hc])
    simp only [List.map_cons, rawBytes, hchunk, hrest, List.flatMap_cons]

theorem canonical_split {chunks : List Bytes} (h : ∀ chunk ∈ chunks, IsChunk chunk) :
    Split (chunks.flatMap canonical) (chunks.map canonical) [] where
  covers := by simp [List.flatMap]
  wellFormed := by
    intro chunk hchunk
    obtain ⟨original, horiginal, rfl⟩ := List.mem_map.mp hchunk
    exact (h original horiginal).canonical.1

/-- Canonical chunks read as a region give the groups of the chunks. -/
theorem read_canonical {chunks : List Bytes} (h : ∀ chunk ∈ chunks, IsChunk chunk) :
    Groups.read (chunks.flatMap canonical) ⟨0, (chunks.flatMap canonical).length⟩
      = .ok (Groups.ofList (chunks.map ofChunk)) := by
  have hpackages : (chunks.map canonical).map ofChunk = chunks.map ofChunk := by
    rw [List.map_map]
    exact List.map_congr_left fun chunk hchunk => (h chunk hchunk).canonical.2
  rw [groups_read_of_inside (Nat.zero_le _) (Nat.le_refl _), Region.slice, List.drop_zero,
    Nat.sub_zero, List.take_length, readAll_of_split 0 (canonical_split h) (by decide), hpackages]
  rfl

/-! ## How long attachments are -/

/-- The length of the wire form of a package. -/
def wireLength (package : Package) : Nat := 16 + package.data.length

theorem wireLength_ofChunk {chunk : Bytes} (h : IsChunk chunk) :
    wireLength (ofChunk chunk) = chunk.length := by
  have hle := h.header_le
  have hdata : (ofChunk chunk).data.length = chunk.length - 16 := List.length_drop
  rw [wireLength, hdata]
  omega

theorem sum_wireLength {chunks : List Bytes} (h : ∀ chunk ∈ chunks, IsChunk chunk) :
    ((chunks.map ofChunk).map wireLength).sum = chunks.flatten.length := by
  rw [List.length_flatten, List.map_map]
  apply congrArg List.sum
  apply List.map_congr_left
  intro chunk hchunk
  exact wireLength_ofChunk (h chunk hchunk)

theorem length_flatMap_canonical (chunks : List Bytes) :
    (chunks.flatMap canonical).length = chunks.flatten.length := by
  simp [List.length_flatMap, List.length_flatten]

end Package

/-- The groups together have the wire lengths of all packages. -/
theorem Groups.sum_wireLength (packages : List Package) :
    ((packages.map (·.logId)).eraseDups.map fun logId =>
        ((ofLogId logId packages).map Package.wireLength).sum).sum
      = (packages.map Package.wireLength).sum := by
  have hperm := (packages_ofList_perm packages).map Package.wireLength
  rw [Groups.packages, toList_ofList, groupsOver, List.flatMap_map, List.map_flatMap,
    List.flatMap_def] at hperm
  rw [← hperm.sum_nat, List.sum_flatten, List.map_map]
  rfl

/-! ## What the entries of a report keep -/

/-- The entries of a response keep its packages: every entry has the chunks of its log id attached,
each in its canonical form, which is the wire form of its package. -/
structure KeepsPackages (buffer : Bytes) (chunks : List Bytes) (tail : Bytes) (groups : Groups)
    (entries : Entries) : Prop where
  carries : Carries buffer chunks tail
  contents : ∃ frame, Contents.read buffer = .ok ⟨frame, groups⟩
  logIds : entries.map (·.logId) = groups.logIds.map some
  attachment : ∀ entry ∈ entries, ∃ logId, entry.logId = some logId ∧
    entry.attachment = some ((Package.chunksOf logId chunks).flatMap Package.canonical)
  wireForm : ∀ chunk ∈ chunks, (Package.ofChunk chunk).encode = .ok (Package.canonical chunk)
  length : (entries.map fun entry => (entry.attachment.getD []).length).sum + tail.length
    = (packageRegion buffer).length
  readBack : ∀ entry ∈ entries, ∀ logId attachment, entry.logId = some logId →
    entry.attachment = some attachment →
    ∃ packages, groups.get? logId = some packages ∧
      Groups.read attachment ⟨0, attachment.length⟩ = .ok ⟨[(logId, packages)]⟩

section

variable {buffer : Bytes} {decoder : Decoder} {lookup : TargetLookup} {options : ReportOptions}
  {chunks : List Bytes} {tail : Bytes}

/-- The attachment of a group holds its chunks. -/
theorem Entry.ofGroup_attachment_of_carries (hattach : options.attachRaw = true)
    (hcarries : Carries buffer chunks tail) (logId : UInt16) :
    (Entry.ofGroup decoder lookup options logId
        (Groups.ofLogId logId (packagesIn buffer))).attachment
      = some ((Package.chunksOf logId chunks).flatMap Package.canonical) := by
  have hown := Package.isChunk_of_mem_chunksOf logId hcarries.split.wellFormed
  rw [Entry.ofGroup_attachment _ _ hattach, hcarries.packagesIn_eq, Package.ofLogId_map_ofChunk,
    Package.rawBytes_map_ofChunk hown]

/-- Chunks of a log id, made canonical and read as a region, give the group of that log id. -/
theorem Groups.read_chunksOf (hcarries : Carries buffer chunks tail) {logId : UInt16}
    (hmem : logId ∈ (packagesIn buffer).map (·.logId)) :
    Groups.read ((Package.chunksOf logId chunks).flatMap Package.canonical)
        ⟨0, ((Package.chunksOf logId chunks).flatMap Package.canonical).length⟩
      = .ok ⟨[(logId, Groups.ofLogId logId (packagesIn buffer))]⟩ := by
  have hown := Package.isChunk_of_mem_chunksOf logId hcarries.split.wellFormed
  rw [Package.read_canonical hown, ← Package.ofLogId_map_ofChunk, ← hcarries.packagesIn_eq,
    Groups.ofList_of_logId logId]
  · intro hnil
    exact Groups.ofLogId_eq_nil_iff.mp hnil hmem
  · intro package hpackage
    simpa using (List.mem_filter.mp hpackage).2

theorem sum_attachments (hattach : options.attachRaw = true)
    (hcarries : Carries buffer chunks tail) :
    ((((packagesIn buffer).map (·.logId)).eraseDups.map fun logId =>
        Entry.ofGroup decoder lookup options logId
          (Groups.ofLogId logId (packagesIn buffer))).map
        fun entry => (entry.attachment.getD []).length).sum
      = chunks.flatten.length := by
  have hchunks := hcarries.split.wellFormed
  have hgroup : ∀ logId, ((Package.chunksOf logId chunks).flatMap Package.canonical).length
      = ((Groups.ofLogId logId (packagesIn buffer)).map Package.wireLength).sum := by
    intro logId
    rw [Package.length_flatMap_canonical, hcarries.packagesIn_eq, Package.ofLogId_map_ofChunk,
      Package.sum_wireLength (Package.isChunk_of_mem_chunksOf logId hchunks)]
  simp only [List.map_map, Function.comp_def, Entry.ofGroup_attachment_of_carries hattach hcarries,
    Option.getD_some, hgroup]
  rw [Groups.sum_wireLength, hcarries.packagesIn_eq, Package.sum_wireLength hchunks]

theorem Report.keepsPackages {report : Report} (hattach : options.attachRaw = true)
    (h : Report.ofResponse buffer decoder lookup options = .ok report) :
    ∃ chunks tail groups, KeepsPackages buffer chunks tail groups report.entries := by
  obtain ⟨contents, hcontents, hgroups, -⟩ := Report.of_response h
  obtain ⟨-, -, chunks, tail, hcarries⟩ := Contents.of_read hcontents
  have hentries := Report.entries_of_response h
  refine ⟨chunks, tail, contents.groups, ?_⟩
  constructor
  case carries => exact hcarries
  case contents => exact ⟨contents.frame, hcontents⟩
  case logIds =>
    rw [hentries, hgroups, Groups.logIds_ofList, List.map_map]
    rfl
  case attachment =>
    intro entry hentry
    rw [hentries] at hentry
    obtain ⟨logId, -, rfl⟩ := List.mem_map.mp hentry
    exact ⟨logId, rfl, Entry.ofGroup_attachment_of_carries hattach hcarries logId⟩
  case wireForm =>
    intro chunk hchunk
    exact Package.encode_ofChunk (hcarries.split.wellFormed chunk hchunk)
  case length =>
    rw [hentries, sum_attachments hattach hcarries, hcarries.split.covers, List.length_append]
  case readBack =>
    intro entry hentry logId attachment hlogId hattachment
    rw [hentries] at hentry
    obtain ⟨own, hmem, rfl⟩ := List.mem_map.mp hentry
    have hmem := List.mem_eraseDups.mp hmem
    rw [Entry.ofGroup_logId, Option.some.injEq] at hlogId
    subst hlogId
    rw [Entry.ofGroup_attachment_of_carries hattach hcarries, Option.some.injEq] at hattachment
    subst hattachment
    refine ⟨Groups.ofLogId own (packagesIn buffer), ?_, Groups.read_chunksOf hcarries hmem⟩
    rw [hgroups, Groups.get?_ofList, if_pos hmem]

/-- Raw attachments lose nothing, in any report that was asked for them and so in the entries of
every failed boot. What this means is listed by `KeepsPackages`. -/
theorem attachments_keep_packages :
    (∀ buffer decoder lookup options report, options.attachRaw = true →
      Report.ofResponse buffer decoder lookup options = .ok report →
      ∃ chunks tail groups, KeepsPackages buffer chunks tail groups report.entries) ∧
    ∀ (chip : Chip) buffer decoder lookup severityMerge entries,
      chip.bootFailure buffer decoder lookup severityMerge = .ok entries →
      ∃ chunks tail groups, KeepsPackages buffer chunks tail groups entries := by
  constructor
  · intro buffer decoder lookup options report hattach h
    exact Report.keepsPackages hattach h
  · intro chip buffer decoder lookup severityMerge entries h
    obtain ⟨report, hreport, rfl⟩ := Outcome.map_eq_ok_iff.mp h
    exact Report.keepsPackages rfl hreport

end

/-- Packages of two log ids in turn, the second one with a severity byte of no level, and a tail. -/
def interleavedResponse : Bytes :=
  [1, 2, 3] ++ [0xC0, 0xDE, 0xA8, 1] ++ [0, 0xFE, 0, 0x0A]
    ++ [0xFB, 0xAD, 0, 4, 0, 1, 0xA8, 1, 0, 7, 0x10, 0, 2, 0, 0, 1]
    ++ [0xFB, 0xAD, 0, 5, 0, 2, 0xA8, 1, 0, 8, 0x33, 0, 0, 0, 0, 3, 9, 9, 9, 9]
    ++ [0xFB, 0xAD, 0, 4, 0, 3, 0xA8, 1, 0, 7, 0x20, 0, 0, 0, 0, 4]
    ++ [5, 6, 7, 8] ++ [0, 0, 0, 17]

/-- A decoder without any definition. -/
def unknowing : Decoder := fun returnCode _ _ _ => .error (.unknownReturnCode returnCode)

/-- The attachments of a response of which no package can be decoded. -/
theorem attachments_keep_packages_interleaved :
    ∃ report,
      Report.ofResponse interleavedResponse unknowing .none { attachRaw := true } = .ok report ∧
      report.entries.map (·.attachment) = [
        some [0xFB, 0xAD, 0, 4, 0, 1, 0xA8, 1, 0, 7, 0x10, 0, 2, 0, 0, 1,
          0xFB, 0xAD, 0, 4, 0, 3, 0xA8, 1, 0, 7, 0x20, 0, 0, 0, 0, 4],
        some [0xFB, 0xAD, 0, 5, 0, 2, 0xA8, 1, 0, 8, 0x40, 0, 0, 0, 0, 3, 9, 9, 9, 9]] ∧
      ∃ chunks tail groups,
        KeepsPackages interleavedResponse chunks tail groups report.entries := by
  have hreport : (Report.ofResponse interleavedResponse unknowing .none
      { attachRaw := true }).map (fun report => report.entries.map (·.attachment)) = .ok [
        some [0xFB, 0xAD, 0, 4, 0, 1, 0xA8, 1, 0, 7, 0x10, 0, 2, 0, 0, 1,
          0xFB, 0xAD, 0, 4, 0, 3, 0xA8, 1, 0, 7, 0x20, 0, 0, 0, 0, 4],
        some [0xFB, 0xAD, 0, 5, 0, 2, 0xA8, 1, 0, 8, 0x40, 0, 0, 0, 0, 3, 9, 9, 9, 9]] := by
    decide +kernel
  obtain ⟨report, h, hattachments⟩ := Outcome.map_eq_ok_iff.mp hreport
  exact ⟨report, h, hattachments, attachments_keep_packages.1 _ _ _ _ _ rfl h⟩

end FirstFailure
