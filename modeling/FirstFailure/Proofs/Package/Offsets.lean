import FirstFailure.Proofs.Package.Chunks
/-!
# Reading a region at offsets of the buffer

`Groups.read` cuts the region out of the buffer before it looks at a package. The same reading can
be done in place: a loop goes from offset to offset, takes each header and the data behind it out of
the buffer itself, and adds every package to the groups so far. Here a cut that is not inside the
buffer makes the whole loop fail, so the agreement of the two says that no cut ever leaves the
buffer.
-/

namespace FirstFailure

namespace Bytes

/-- The bytes from one offset of a buffer to another, if the buffer has them all. -/
def cut? (buffer : Bytes) (start stop : Nat) : Option Bytes :=
  if start ≤ stop ∧ stop ≤ buffer.length then some ((buffer.drop start).take (stop - start))
  else none

end Bytes

namespace Package

/-- The package at an offset of a buffer, in a region with the given end. -/
def decodeAt? (buffer : Bytes) (offset stop : Nat) : Option (Except RegionError Package) := do
  let header ← buffer.cut? offset (offset + 16)
  let claimed := Bytes.toU16 (header.take 2)
  let lengthWords := Bytes.toU16 ((header.drop 2).take 2)
  let size := lengthWords.toNat * 4
  if claimed ≠ magic then return .error (.invalidMagic offset claimed)
  if lengthWords.toNat < 4 then return .error (.packageTooShort offset lengthWords)
  if offset + size > stop then return .error (.packageOverruns offset size stop)
  let data ← buffer.cut? (offset + 16) (offset + size)
  return .ok {
    sequenceId := Bytes.toU16 ((header.drop 4).take 2)
    commandClass := header.getD 6 0
    command := header.getD 7 0
    logId := Bytes.toU16 ((header.drop 8).take 2)
    severity := .ofRaw (header.getD 10 0)
    chipId := header.getD 11 0
    returnCode := Bytes.toU32 ((header.drop 12).take 4)
    data }

end Package

namespace Groups

open Package

/-- Read packages from an offset on, and add them to groups. -/
def readFrom? (buffer : Bytes) (stop offset : Nat) (groups : Groups) :
    Option (Except RegionError Groups) :=
  if offset + 16 ≤ stop then
    match decodeAt? buffer offset stop with
    | none => none
    | some (.error e) => some (.error e)
    | some (.ok package) =>
      readFrom? buffer stop (offset + (package.data.length + 16)) (groups.insert package)
  else some (.ok groups)
termination_by stop - offset

end Groups

namespace Package

/-- What is left of a region from an offset on. -/
structure StandsAt (buffer : Bytes) (offset stop : Nat) (rest : Bytes) : Prop where
  inside : offset ≤ stop ∧ stop ≤ buffer.length
  bytes : (buffer.drop offset).take (stop - offset) = rest

variable {buffer rest chunk after : Bytes} {offset stop : Nat} {e : RegionError}

theorem StandsAt.length (h : StandsAt buffer offset stop rest) : rest.length = stop - offset := by
  obtain ⟨⟨hstart, hstop⟩, rfl⟩ := h
  rw [List.length_take, List.length_drop]
  omega

/-- What is left is cut as it stands in the buffer. -/
theorem StandsAt.cut? (h : StandsAt buffer offset stop rest) {start finish : Nat}
    (hle : start ≤ finish) (hfinish : finish ≤ rest.length) :
    buffer.cut? (offset + start) (offset + finish)
      = some ((rest.drop start).take (finish - start)) := by
  have hlength := h.length
  obtain ⟨⟨hstart, hstop⟩, rfl⟩ := h
  rw [Bytes.cut?, if_pos ⟨by omega, by omega⟩, List.drop_take, List.take_take, List.drop_drop]
  congr 2
  omega

theorem StandsAt.advance (h : StandsAt buffer offset stop rest) {n : Nat} (hn : n ≤ rest.length) :
    StandsAt buffer (offset + n) stop (rest.drop n) := by
  have hlength := h.length
  obtain ⟨⟨hstart, hstop⟩, rfl⟩ := h
  refine ⟨⟨by omega, hstop⟩, ?_⟩
  rw [List.drop_take, List.drop_drop, Nat.sub_add_eq]

/-! ## One package in place -/

theorem slice_take {i k n : Nat} (h : i + k ≤ n) (bytes : Bytes) :
    ((bytes.take n).drop i).take k = (bytes.drop i).take k := by
  rw [List.drop_take, List.take_take, Nat.min_eq_left (by omega)]

theorem getD_take {i n : Nat} (h : i < n) (bytes : Bytes) :
    (bytes.take n).getD i 0 = bytes.getD i 0 := by
  rw [List.getD_eq_getElem?_getD, List.getD_eq_getElem?_getD, List.getElem?_take_of_lt h]

/-- The package of the bytes in front differs in its data only from that of all the bytes. -/
theorem ofChunk_take {n : Nat} (h : 16 ≤ n) (bytes : Bytes) :
    ofChunk (bytes.take n) = { ofChunk bytes with data := (bytes.drop 16).take (n - 16) } := by
  rw [← List.drop_take]
  simp (disch := omega) only [ofChunk, slice_take, getD_take]

theorem toNat_lengthWords (hle : 16 ≤ rest.length) :
    (Bytes.toU16 ((rest.drop 2).take 2)).toNat = wordCount rest := by
  rw [wordCount, Bytes.toNat_toU16]
  rw [List.length_take, List.length_drop]
  omega

theorem decodeAt?_of_standsAt (h : StandsAt buffer offset stop rest) (hle : 16 ≤ rest.length) :
    decodeAt? buffer offset stop =
      if Bytes.toU16 (rest.take 2) ≠ magic then
        some (.error (.invalidMagic offset (Bytes.toU16 (rest.take 2))))
      else if wordCount rest < 4 then
        some (.error (.packageTooShort offset (Bytes.toU16 ((rest.drop 2).take 2))))
      else if rest.length < 4 * wordCount rest then
        some (.error (.packageOverruns offset (4 * wordCount rest) stop))
      else some (.ok (ofChunk (rest.take (4 * wordCount rest)))) := by
  have hheader : buffer.cut? offset (offset + 16) = some (rest.take 16) :=
    h.cut? (Nat.zero_le 16) hle
  have hmagic : (rest.take 16).take 2 = rest.take 2 := by rw [List.take_take]; rfl
  have hlength := h.length
  have hinside := h.inside
  simp (disch := omega) only [decodeAt?, hheader, hmagic, slice_take, getD_take,
    toNat_lengthWords hle, Nat.mul_comm _ 4, Option.bind_eq_bind, Option.bind_some]
  by_cases hclaimed : Bytes.toU16 (rest.take 2) ≠ magic
  · rw [if_pos hclaimed, if_pos hclaimed]
    rfl
  by_cases hwords : wordCount rest < 4
  · rw [if_neg hclaimed, if_neg hclaimed, if_pos hwords, if_pos hwords]
    rfl
  by_cases hlong : rest.length < 4 * wordCount rest
  · rw [if_neg hclaimed, if_neg hclaimed, if_neg hwords, if_neg hwords, if_pos hlong,
      if_pos (by omega)]
    rfl
  rw [if_neg hclaimed, if_neg hclaimed, if_neg hwords, if_neg hwords, if_neg hlong,
    if_neg (by omega), h.cut? (by omega) (by omega), ofChunk_take (by omega)]
  rfl

/-- A chunk is decoded in place. -/
theorem decodeAt?_chunk (h : StandsAt buffer offset stop (chunk ++ after))
    (hchunk : IsChunk chunk) :
    decodeAt? buffer offset stop = some (.ok (ofChunk chunk)) := by
  have hheader := hchunk.header_le
  have hcount : wordCount (chunk ++ after) = wordCount chunk :=
    wordCount_append (by omega) after
  have hmagic : Bytes.toU16 ((chunk ++ after).take 2) = magic := by
    rw [List.take_append_of_le_length (by omega), hchunk.magic]
    rfl
  have hwords := hchunk.words
  rw [decodeAt?_of_standsAt h (by rw [List.length_append]; omega), hcount, ← hchunk.length,
    if_neg (fun hne => hne hmagic), if_neg (by omega), if_neg (by rw [List.length_append]; omega),
    List.take_left]

/-- A fault is found in place. -/
theorem decodeAt?_fault (h : StandsAt buffer offset stop rest) (hle : 16 ≤ rest.length)
    (hfault : FaultAt offset stop rest e) : decodeAt? buffer offset stop = some (.error e) := by
  have hmagic : Bytes.toU16 (rest.take 2) = magic ↔ rest.take 2 = [0xFB, 0xAD] :=
    Bytes.toU16_eq_iff (by rw [List.length_take]; omega) magic
  rw [decodeAt?_of_standsAt h hle]
  cases hfault with
  | magic hother => rw [if_pos (fun heq => hother (hmagic.mp heq))]
  | short hsame hwords => rw [if_neg (fun hne => hne (hmagic.mpr hsame)), if_pos hwords]
  | overrun hsame hwords hlong =>
    rw [if_neg (fun hne => hne (hmagic.mpr hsame)), if_neg (by omega), if_pos hlong]

end Package

namespace Groups

open Package

/-- In place, packages are read and added as they are when the rest of the region stands alone. -/
theorem readFrom?_eq {buffer rest : Bytes} {offset stop : Nat}
    (h : StandsAt buffer offset stop rest) (groups : Groups) :
    readFrom? buffer stop offset groups
      = some ((readAll offset rest).map fun packages => packages.foldl insert groups) := by
  induction hlength : rest.length using Nat.strongRecOn generalizing offset rest groups with
  | ind n ih =>
    subst hlength
    have hleft := h.length
    rw [readFrom?]
    by_cases hshort : rest.length < 16
    · rw [if_neg (by omega), readAll_short offset hshort]
      rfl
    rw [if_pos (by omega)]
    rcases chunk_or_fault offset stop rest with ⟨chunk, after, rfl, hchunk⟩ | ⟨e, hfault⟩
    · have hheader := hchunk.header_le
      have hsize : (ofChunk chunk).data.length + 16 = chunk.length := by
        show (chunk.drop 16).length + 16 = chunk.length
        rw [List.length_drop]
        omega
      have hnext := h.advance (n := chunk.length) (by simp)
      rw [List.drop_left] at hnext
      rw [decodeAt?_chunk h hchunk, readAll_chunk offset hchunk]
      simp only [hsize]
      rw [ih after.length (by rw [List.length_append]; omega) hnext _ rfl]
      cases readAll (offset + chunk.length) after with
      | ok packages => rfl
      | error e => rfl
    · have hstop : offset + rest.length = stop := by
        have := h.inside
        omega
      rw [decodeAt?_fault h (by omega) hfault, readAll_fault (by omega) (hstop.symm ▸ hfault)]
      rfl

/-- Reading a region in place gives what reading it after cutting it out gives, and it takes nothing
that is not inside the buffer. -/
theorem readFrom?_region {buffer : Bytes} {region : Region} (hstart : region.start ≤ region.stop)
    (hstop : region.stop ≤ buffer.length) :
    readFrom? buffer region.stop region.start .empty = some (Groups.read buffer region) := by
  have hrest : StandsAt buffer region.start region.stop (region.slice buffer) :=
    ⟨⟨hstart, hstop⟩, rfl⟩
  rw [readFrom?_eq hrest, groups_read_of_inside hstart hstop]
  rw [← funext ofList_eq_foldl_insert]

end Groups

end FirstFailure
