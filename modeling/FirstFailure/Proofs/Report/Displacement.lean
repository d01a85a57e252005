import FirstFailure.Proofs.Response.Contents
import FirstFailure.Proofs.Response.Framing
import FirstFailure.Report.Basic
/-!
# Responses behind other bytes

A response is found from its end, and all its places are counted from its header. Bytes in front of
it belong to its value. They move header and region, and the places that an error tells, by their
own number, and change nothing else: the groups, the entries and the kind of an error stay. Nor does
it matter to a region what stands around it.
-/

namespace FirstFailure

/-! ## Things that move -/

/-- A region with so many more bytes in front of it. -/
def Region.shift (n : Nat) (region : Region) : Region := ⟨n + region.start, n + region.stop⟩

/-- The same fault with so many more bytes in front of the buffer. -/
def RegionError.shift (n : Nat) : RegionError → RegionError
  | invalidMagic offset magic => invalidMagic (n + offset) magic
  | packageTooShort offset lengthWords => packageTooShort (n + offset) lengthWords
  | packageOverruns offset size stop => packageOverruns (n + offset) size (n + stop)
  | outOfBounds region len => outOfBounds (region.shift n) (n + len)

/-- The same error with so many more bytes in front of the buffer. An error of the framing tells no
place. -/
def ContentsError.shift (n : Nat) : ContentsError → ContentsError
  | frame error => frame error
  | region error => region (error.shift n)

/-- The same error with so many more bytes in front of the buffer. -/
def ReportError.shift (n : Nat) : ReportError → ReportError
  | malformed error => malformed (error.shift n)
  | noPackages => noPackages

/-- The framing of the same buffer behind other bytes. -/
def Frame.behind (front : Bytes) (frame : Frame) : Frame where
  value := front ++ frame.value
  status := frame.status
  headerOffset := front.length + frame.headerOffset
  region := frame.region.map (.shift front.length)

/-- The contents of the same buffer behind other bytes. -/
def Contents.behind (front : Bytes) (contents : Contents) : Contents :=
  { contents with frame := contents.frame.behind front }

/-- The report of the same buffer behind other bytes. -/
def Report.behind (front : Bytes) (report : Report) : Report :=
  { report with value := front ++ report.value }

/-! ## Regions -/

theorem Region.slice_shift (front buffer : Bytes) (region : Region) :
    (region.shift front.length).slice (front ++ buffer) = region.slice buffer := by
  have hlength : front.length + region.stop - (front.length + region.start)
      = region.stop - region.start := by omega
  simp only [slice, shift, hlength, List.drop_length_add_append]

namespace Package

theorem FaultAt.shift {offset stop : Nat} {rest : Bytes} {error : RegionError} (n : Nat)
    (h : FaultAt offset stop rest error) :
    FaultAt (n + offset) (n + stop) rest (error.shift n) := by
  cases h with
  | magic hmagic => exact .magic hmagic
  | short hmagic hwords => exact .short hmagic hwords
  | overrun hmagic hwords hlength => exact .overrun hmagic hwords hlength

/-- The first fault of a region is the same wherever the region stands. -/
theorem readAll_shift (n offset : Nat) (bytes : Bytes) :
    readAll (n + offset) bytes = (readAll offset bytes).mapError (.shift n) := by
  obtain ⟨chunks, rest, hsplit, hshort | ⟨hlong, error, hfault⟩⟩ :=
    exists_split offset (offset + bytes.length) bytes
  · rw [readAll_of_split _ hsplit hshort, readAll_of_split _ hsplit hshort]
    rfl
  · have hshifted := hfault.shift n
    rw [← Nat.add_assoc, ← Nat.add_assoc] at hshifted
    rw [readAll_of_fault hsplit hlong hfault, readAll_of_fault hsplit hlong hshifted]
    rfl

end Package

theorem Groups.read_shift (front buffer : Bytes) (region : Region) :
    Groups.read (front ++ buffer) (region.shift front.length)
      = (Groups.read buffer region).mapError (.shift front.length) := by
  have hlength : (front ++ buffer).length = front.length + buffer.length := List.length_append
  by_cases hinside : region.start ≤ region.stop ∧ region.stop ≤ buffer.length
  · obtain ⟨hstart, hstop⟩ := hinside
    have hread := Package.groups_read_of_inside hstart hstop
    have hreadShifted := Package.groups_read_of_inside
      (show (region.shift front.length).start ≤ (region.shift front.length).stop from
        Nat.add_le_add_left hstart _)
      (show (region.shift front.length).stop ≤ (front ++ buffer).length from
        hlength ▸ Nat.add_le_add_left hstop _)
    have hall := Package.readAll_shift front.length region.start (region.slice buffer)
    rw [hread, hreadShifted, Region.slice_shift, Region.shift, hall, Outcome.map_mapError]
  · have houtside : region.stop < region.start ∨ buffer.length < region.stop := by omega
    have houtsideShifted : (region.shift front.length).stop < (region.shift front.length).start ∨
        (front ++ buffer).length < (region.shift front.length).stop := by
      simp only [hlength, Region.shift]
      omega
    rw [Groups.read, if_pos houtsideShifted, Groups.read, if_pos houtside, hlength]
    rfl

/-- What stands behind a region does not count either. -/
theorem Groups.read_around (before region after : Bytes) :
    Groups.read (before ++ region ++ after) ⟨before.length, before.length + region.length⟩
      = (Groups.read region ⟨0, region.length⟩).mapError (.shift before.length) := by
  have hslice : (Region.mk 0 region.length).slice (region ++ after)
      = (Region.mk 0 region.length).slice region := by
    simp [Region.slice]
  have hlength : region.length ≤ (region ++ after).length := by
    rw [List.length_append]
    omega
  have hback : Groups.read (region ++ after) ⟨0, region.length⟩
      = Groups.read region ⟨0, region.length⟩ := by
    rw [Package.groups_read_of_inside (Nat.zero_le _) hlength,
      Package.groups_read_of_inside (Nat.zero_le _) (Nat.le_refl _), hslice]
  rw [← hback, ← Groups.read_shift, List.append_assoc]
  rfl

/-! ## Frames -/

namespace Frame

variable {buffer : Bytes}

theorem distanceWords_behind (front : Bytes) (h : 4 ≤ buffer.length) :
    distanceWords (front ++ buffer) = distanceWords buffer := by
  have hlast : (front ++ buffer).length - 4 = front.length + (buffer.length - 4) := by
    rw [List.length_append]
    omega
  rw [distanceWords, hlast, List.drop_length_add_append, distanceWords]

theorem headerStart_behind (front : Bytes) (h : Framed buffer) :
    headerStart (front ++ buffer) = front.length + headerStart buffer := by
  have hlength := h.length
  have hinside := h.inside
  rw [headerStart, headerStart, distanceWords_behind front (by omega), List.length_append]
  omega

theorem Framed.behind (front : Bytes) (h : Framed buffer) : Framed (front ++ buffer) := by
  have hlength := h.length
  have hinside := h.inside
  have hwords : distanceWords (front ++ buffer) = distanceWords buffer :=
    distanceWords_behind front (by omega)
  refine ⟨?_, hwords ▸ h.room, ?_, ?_⟩
  · rw [List.length_append]
    omega
  · rw [hwords, List.length_append]
    omega
  · rw [headerStart_behind front h, List.drop_length_add_append]
    exact h.magic

/-- A framed buffer is framed behind other bytes. -/
theorem read_behind (front : Bytes) {want : Bool} {frame : Frame}
    (h : read buffer want = .ok frame) :
    read (front ++ buffer) want = .ok (frame.behind front) := by
  have hframed := framed_of_read h
  have hlength := hframed.length
  have hstart := headerStart_behind front hframed
  have hvalue : (front ++ buffer).take (front.length + headerStart buffer)
      = front ++ buffer.take (headerStart buffer) := List.take_length_add_append _
  have hlast : (front ++ buffer).length - 4 = front.length + (buffer.length - 4) := by
    rw [List.length_append]
    omega
  rw [read_of_framed hframed, Except.ok.injEq] at h
  subst h
  rw [read_of_framed (hframed.behind front), hstart, hvalue, hlast, Nat.add_assoc,
    List.drop_length_add_append, distanceWords_behind front (by omega)]
  simp only [behind]
  split
  · rfl
  · rfl

end Frame

/-! ## Contents and reports -/

/-- A buffer that is framed has the same packages behind other bytes, or the same fault in them. -/
theorem Contents.read_behind (front : Bytes) {buffer : Bytes} {want : Bool} {frame : Frame}
    (h : Frame.read buffer want = .ok frame) :
    Contents.read (front ++ buffer)
      = ((Contents.read buffer).map (.behind front)).mapError (.shift front.length) := by
  obtain ⟨⟨value, status, headerOffset, region⟩, hwanted⟩ :
      ∃ wanted, Frame.read buffer true = .ok wanted :=
    ⟨_, Frame.read_of_framed (Frame.framed_of_read h) true⟩
  rw [read_of_frame (Frame.read_behind front hwanted), read_of_frame hwanted]
  cases region with
  | none => rfl
  | some region =>
    simp only [Frame.behind, Option.map_some, Groups.read_shift]
    cases Groups.read buffer region with
    | error e => rfl
    | ok groups => rfl

/-- A framed buffer makes the same entries behind other bytes, or the same kind of error. -/
theorem Report.ofResponse_behind (front : Bytes) {buffer : Bytes} {want : Bool} {frame : Frame}
    (h : Frame.read buffer want = .ok frame) (decoder : Decoder) (lookup : TargetLookup)
    (options : ReportOptions) :
    Report.ofResponse (front ++ buffer) decoder lookup options
      = ((Report.ofResponse buffer decoder lookup options).map (.behind front)).mapError
        (.shift front.length) := by
  rw [ofResponse, Contents.read_behind front h, ofResponse]
  cases Contents.read buffer with
  | error e => rfl
  | ok contents =>
    show (if contents.groups.isEmpty then _ else _)
      = ((if contents.groups.isEmpty then _ else _ : Except ReportError Report).map _).mapError _
    cases contents.groups.isEmpty with
    | true => rfl
    | false => rfl

/-- Reading does not depend on where bytes stand. A region inside a buffer reads like a buffer of
its own, and the places in its faults move by what stands in front of it. A framed buffer behind
other bytes is framed; these belong to its value, and header and region move by their number. It has
the same packages, or the same fault in them further on, and so the same entries or the same kind of
error, whatever decoder, tree and options. -/
theorem displaced_bytes_read_alike :
    (∀ before region after : Bytes,
      Groups.read (before ++ region ++ after) ⟨before.length, before.length + region.length⟩
        = (Groups.read region ⟨0, region.length⟩).mapError (.shift before.length)) ∧
    ∀ (front buffer : Bytes) (want : Bool) (frame : Frame), Frame.read buffer want = .ok frame →
      Frame.read (front ++ buffer) want = .ok (frame.behind front) ∧
      Contents.read (front ++ buffer)
        = ((Contents.read buffer).map (.behind front)).mapError (.shift front.length) ∧
      ∀ decoder lookup options,
        Report.ofResponse (front ++ buffer) decoder lookup options
          = ((Report.ofResponse buffer decoder lookup options).map (.behind front)).mapError
            (.shift front.length) :=
  ⟨Groups.read_around, fun front _ _ _ h =>
    ⟨Frame.read_behind front h, Contents.read_behind front h, Report.ofResponse_behind front h⟩⟩

/-- A response with a value of one byte, whose second package claims less than a header. -/
def brokenResponse : Bytes :=
  [5] ++ [0xC0, 0xDE, 0xA8, 1] ++ [0, 0xFE, 0, 0x0A]
    ++ [0xFB, 0xAD, 0, 4, 0, 1, 0xA8, 1, 0, 7, 0x40, 0, 0, 0, 0, 1]
    ++ [0xFB, 0xAD, 0, 3, 0, 2, 0xA8, 1, 0, 7, 0x40, 0, 0, 0, 0, 2] ++ [0, 0, 0, 11]

/-- Two bytes in front move the fault from offset 25 to offset 27. -/
theorem displaced_bytes_read_alike_broken :
    Frame.read brokenResponse true
      = .ok ⟨[5], ⟨.genericExecutionFailure, .genericFailureInExecution⟩, 1, some ⟨9, 41⟩⟩ ∧
    Frame.read ([8, 8] ++ brokenResponse) true
      = .ok ⟨[8, 8, 5], ⟨.genericExecutionFailure, .genericFailureInExecution⟩, 3,
        some ⟨11, 43⟩⟩ ∧
    Report.ofResponse brokenResponse .raw .none {}
      = .error (.malformed (.region (.packageTooShort 25 3))) ∧
    Report.ofResponse ([8, 8] ++ brokenResponse) .raw .none {}
      = .error (.malformed (.region (.packageTooShort 27 3))) := by
  have hframe : Frame.read brokenResponse true
      = .ok ⟨[5], ⟨.genericExecutionFailure, .genericFailureInExecution⟩, 1, some ⟨9, 41⟩⟩ := by
    decide +kernel
  have hreport : Report.ofResponse brokenResponse .raw .none {}
      = .error (.malformed (.region (.packageTooShort 25 3))) := by
    decide +kernel
  obtain ⟨hbehind, -, hreports⟩ :=
    displaced_bytes_read_alike.2 [8, 8] brokenResponse true _ hframe
  have hreportBehind := hreports .raw .none {}
  rw [hreport] at hreportBehind
  exact ⟨hframe, hbehind, hreport, hreportBehind⟩

end FirstFailure
