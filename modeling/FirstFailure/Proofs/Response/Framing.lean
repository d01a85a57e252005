import FirstFailure.Proofs.Bytes
import FirstFailure.Response.Basic
/-!
# Framed buffers

A buffer is framed when it is long enough, its last word tells a distance that leads to a place
inside it with room for header and status, and the magic number stands there. `Frame.read` accepts
exactly these buffers. On them nothing is lost: the parts of the frame and the bytes of its region,
framed again by `Response.frameRegion`, give the buffer back. `frame_read_iff_framed` states both,
with the one exception of a distance of two words, where status and distance are the same word.
-/

namespace FirstFailure

/-! ## Status words lose nothing -/

/-- One line of a table of codes: the meaning of a code gives the code back if the line and the rest
of the table do. -/
theorem raw_of_table {α : Type} (raw : α → UInt16) {code entry : UInt16} {meaning rest : α}
    (hentry : raw meaning = entry) (hrest : raw rest = code) :
    raw (if code = entry then meaning else rest) = code := by
  by_cases h : code = entry
  · rw [if_pos h, hentry, h]
  · rw [if_neg h, hrest]

theorem PrimaryStatus.raw_ofRaw (code : UInt16) : (PrimaryStatus.ofRaw code).raw = code := by
  unfold PrimaryStatus.ofRaw
  iterate 7 refine raw_of_table PrimaryStatus.raw rfl ?_
  rfl

theorem SecondaryStatus.raw_ofRaw (code : UInt16) : (SecondaryStatus.ofRaw code).raw = code := by
  unfold SecondaryStatus.ofRaw
  iterate 11 refine raw_of_table SecondaryStatus.raw rfl ?_
  rfl

/-- A status word survives as a status, unknown codes included. -/
theorem Status.toWord_ofWord (word : UInt32) : (Status.ofWord word).toWord = word := by
  apply UInt32.toNat_inj.mp
  have hword : word.toNat < 4294967296 := word.toNat_lt
  rw [Status.toWord, Status.ofWord, PrimaryStatus.raw_ofRaw, SecondaryStatus.raw_ofRaw,
    UInt16.toNat_ofNat', UInt16.toNat_ofNat', UInt32.toNat_ofNat']
  omega

/-- A status survives as a status word, but for a code that has a name and is kept as a number. -/
theorem Status.ofWord_toWord (status : Status) :
    Status.ofWord status.toWord = ⟨.ofRaw status.primary.raw, .ofRaw status.secondary.raw⟩ := by
  have hprimary : status.primary.raw.toNat < 65536 := status.primary.raw.toNat_lt
  have hsecondary : status.secondary.raw.toNat < 65536 := status.secondary.raw.toNat_lt
  have hword : status.toWord.toNat
      = status.primary.raw.toNat * 65536 + status.secondary.raw.toNat := by
    rw [Status.toWord, UInt32.toNat_ofNat']
    omega
  have hhigh : UInt16.ofNat (status.toWord.toNat / 65536) = status.primary.raw := by
    apply UInt16.toNat_inj.mp
    rw [UInt16.toNat_ofNat', hword]
    omega
  have hlow : UInt16.ofNat status.toWord.toNat = status.secondary.raw := by
    apply UInt16.toNat_inj.mp
    rw [UInt16.toNat_ofNat', hword]
    omega
  rw [Status.ofWord, hhigh, hlow]

namespace Frame

/-! ## The distance and what it leads to -/

/-- The number in the last four bytes of a buffer. -/
def distanceWords (buffer : Bytes) : Nat := Bytes.toNat (buffer.drop (buffer.length - 4))

/-- The place that is so many words before the end of a buffer. -/
def headerStart (buffer : Bytes) : Nat := buffer.length - 4 * distanceWords buffer

/-- Why a buffer is not framed. -/
inductive Refused (buffer : Bytes) : FrameError → Prop where
  | small : buffer.length < 12 → Refused buffer (.bufferTooSmall buffer.length)
  | offset : 12 ≤ buffer.length →
      distanceWords buffer < 2 ∨ buffer.length < 4 * distanceWords buffer →
      Refused buffer
        (.invalidHeaderOffset (Bytes.toU32 (buffer.drop (buffer.length - 4))) buffer.length)
  | magic : 12 ≤ buffer.length → 2 ≤ distanceWords buffer →
      4 * distanceWords buffer ≤ buffer.length →
      (buffer.drop (headerStart buffer)).take 2 ≠ [0xC0, 0xDE] →
      Refused buffer (.invalidMagic (Bytes.toU32 ((buffer.drop (headerStart buffer)).take 4)))

/-- The distance leads to a place inside the buffer with room for header and status, and the magic
number stands there. -/
structure Framed (buffer : Bytes) : Prop where
  length : 12 ≤ buffer.length
  room : 2 ≤ distanceWords buffer
  inside : 4 * distanceWords buffer ≤ buffer.length
  magic : (buffer.drop (headerStart buffer)).take 2 = [0xC0, 0xDE]

theorem toNat_trailingDistance {buffer : Bytes} (h : 12 ≤ buffer.length) :
    (trailingDistance buffer).toNat = distanceWords buffer :=
  Bytes.toNat_toU32 (by rw [List.length_drop]; simp only [wordSize]; omega)

theorem exists_words {bytes : Bytes} (h : 8 ≤ bytes.length) :
    ∃ m1 m0 c1 c0 s3 s2 s1 s0 rest,
      bytes = m1 :: m0 :: c1 :: c0 :: s3 :: s2 :: s1 :: s0 :: rest := by
  match bytes, h with
  | m1 :: m0 :: c1 :: c0 :: s3 :: s2 :: s1 :: s0 :: rest, _ =>
    exact ⟨m1, m0, c1, c0, s3, s2, s1, s0, rest, rfl⟩

/-! ## Reading, case by case -/

theorem read_small {buffer : Bytes} (h : buffer.length < 12) (want : Bool) :
    read buffer want = .error (.bufferTooSmall buffer.length) := by
  unfold read
  exact if_pos h

theorem read_offset {buffer : Bytes} (h : 12 ≤ buffer.length)
    (hdistance : distanceWords buffer < 2 ∨ buffer.length < 4 * distanceWords buffer)
    (want : Bool) :
    read buffer want = .error
      (.invalidHeaderOffset (Bytes.toU32 (buffer.drop (buffer.length - 4))) buffer.length) := by
  have hwords := toNat_trailingDistance h
  have hsmall : ¬ buffer.length < minResponseLength := by
    show ¬ buffer.length < 12
    omega
  unfold read
  simp only [if_neg hsmall, hwords, wordSize]
  split
  · rfl
  · -- Fewer than eight bytes are left from the header's place on.
    split
    · rename_i heq
      have hlen := congrArg List.length heq
      simp only [List.length_drop, List.length_cons] at hlen
      omega
    · rfl

/-- A distance that leads to a place with room decides by the magic number there. -/
theorem read_room {buffer : Bytes} (h : 12 ≤ buffer.length)
    (hinside : 4 * distanceWords buffer ≤ buffer.length) {m1 m0 c1 c0 s3 s2 s1 s0 : UInt8}
    {rest : Bytes}
    (hwords : buffer.drop (headerStart buffer)
      = m1 :: m0 :: c1 :: c0 :: s3 :: s2 :: s1 :: s0 :: rest) (want : Bool) :
    read buffer want
      = if Bytes.toU16 [m1, m0] = headerMagic then
          .ok {
            value := buffer.take (headerStart buffer)
            status := .ofWord (Bytes.toU32 [s3, s2, s1, s0])
            headerOffset := headerStart buffer
            region :=
              if want ∧ rest ≠ [] then
                some ⟨headerStart buffer + 8, buffer.length - 4⟩
              else none }
        else .error (.invalidMagic (Bytes.toU32 [m1, m0, c1, c0])) := by
  have hdistance := toNat_trailingDistance h
  have hsmall : ¬ buffer.length < minResponseLength := by
    show ¬ buffer.length < 12
    omega
  have hstart : buffer.length - distanceWords buffer * 4 = headerStart buffer := by
    rw [headerStart, Nat.mul_comm]
  unfold read
  simp only [if_neg hsmall, hdistance, wordSize]
  rw [if_neg (by omega), hstart, hwords]

theorem exists_words_at_header {buffer : Bytes} (hroom : 2 ≤ distanceWords buffer)
    (hinside : 4 * distanceWords buffer ≤ buffer.length) :
    ∃ m1 m0 c1 c0 s3 s2 s1 s0 rest,
      buffer.drop (headerStart buffer) = m1 :: m0 :: c1 :: c0 :: s3 :: s2 :: s1 :: s0 :: rest ∧
      rest.length = 4 * distanceWords buffer - 8 := by
  have hlen : (buffer.drop (headerStart buffer)).length = 4 * distanceWords buffer := by
    rw [List.length_drop, headerStart]
    omega
  have hroom' : 8 ≤ (buffer.drop (headerStart buffer)).length := by omega
  obtain ⟨m1, m0, c1, c0, s3, s2, s1, s0, rest, hwords⟩ := exists_words hroom'
  refine ⟨m1, m0, c1, c0, s3, s2, s1, s0, rest, hwords, ?_⟩
  rw [hwords] at hlen
  simp only [List.length_cons] at hlen
  omega

theorem read_of_refused {buffer : Bytes} {e : FrameError} (h : Refused buffer e) (want : Bool) :
    read buffer want = .error e := by
  cases h with
  | small hsmall => exact read_small hsmall want
  | offset hlength hdistance => exact read_offset hlength hdistance want
  | magic hlength hroom hinside hmagic =>
    obtain ⟨m1, m0, c1, c0, s3, s2, s1, s0, rest, hwords, -⟩ :=
      exists_words_at_header hroom hinside
    have hne : Bytes.toU16 [m1, m0] ≠ headerMagic := by
      intro heq
      apply hmagic
      rw [hwords]
      exact (Bytes.toU16_eq_iff rfl headerMagic).mp heq
    rw [read_room hlength hinside hwords, if_neg hne, hwords]
    rfl

theorem read_of_framed {buffer : Bytes} (h : Framed buffer) (want : Bool) :
    read buffer want = .ok {
      value := buffer.take (headerStart buffer)
      status := .ofWord (Bytes.toU32 ((buffer.drop (headerStart buffer + 4)).take 4))
      headerOffset := headerStart buffer
      region :=
        if want ∧ 3 ≤ distanceWords buffer then
          some ⟨headerStart buffer + 8, buffer.length - 4⟩
        else none } := by
  obtain ⟨m1, m0, c1, c0, s3, s2, s1, s0, rest, hwords, hrest⟩ :=
    exists_words_at_header h.room h.inside
  have hmagic : [m1, m0] = [0xC0, 0xDE] := by
    have := h.magic
    rw [hwords] at this
    exact this
  have hstatus : (buffer.drop (headerStart buffer + 4)).take 4 = [s3, s2, s1, s0] := by
    rw [← List.drop_drop, hwords]
    rfl
  have hmore : rest ≠ [] ↔ 3 ≤ distanceWords buffer := by
    have hroom := h.room
    rw [← List.length_pos_iff, hrest]
    omega
  rw [read_room h.length h.inside hwords, if_pos (by rw [hmagic]; decide), hstatus]
  simp only [hmore]

theorem framed_or_refused (buffer : Bytes) : Framed buffer ∨ ∃ e, Refused buffer e := by
  by_cases hlength : 12 ≤ buffer.length
  · by_cases hroom : 2 ≤ distanceWords buffer
    · by_cases hinside : 4 * distanceWords buffer ≤ buffer.length
      · by_cases hmagic : (buffer.drop (headerStart buffer)).take 2 = [0xC0, 0xDE]
        · exact Or.inl ⟨hlength, hroom, hinside, hmagic⟩
        · exact Or.inr ⟨_, .magic hlength hroom hinside hmagic⟩
      · exact Or.inr ⟨_, .offset hlength (Or.inr (by omega))⟩
    · exact Or.inr ⟨_, .offset hlength (Or.inl (by omega))⟩
  · exact Or.inr ⟨_, .small (by omega)⟩

theorem framed_of_read {buffer : Bytes} {want : Bool} {frame : Frame}
    (h : read buffer want = .ok frame) : Framed buffer := by
  rcases framed_or_refused buffer with hframed | ⟨e, hrefused⟩
  · exact hframed
  · rw [read_of_refused hrefused] at h
    cases h

end Frame

/-! ## Framing a region -/

theorem Response.frameRegion_of_words (response : Response) {region : Bytes} {words : Nat}
    (h : region.length = 4 * words) :
    response.frameRegion region
      = response.value ++ (Bytes.ofU16 headerMagic ++ [response.commandClass, response.command]
        ++ Bytes.ofU32 response.status.toWord ++ (region ++ Bytes.ofNat 4 (words + 3))) := by
  have hwords : (4 * words + 3) / 4 = words := by omega
  have hpadding : words * 4 - 4 * words = 0 := by omega
  have hdistance : 2 + words + 1 = words + 3 := by omega
  simp only [Response.frameRegion, h, wordSize, Nat.reduceSub, hwords, hpadding, hdistance,
    List.replicate_zero, List.append_nil, List.append_assoc]

namespace Frame

theorem ofNat_distanceWords {buffer : Bytes} (h : 4 ≤ buffer.length) :
    Bytes.ofNat 4 (distanceWords buffer) = buffer.drop (buffer.length - 4) := by
  have hfour : (buffer.drop (buffer.length - 4)).length = 4 := by
    rw [List.length_drop]
    omega
  have hbytes := Bytes.ofNat_toNat (buffer.drop (buffer.length - 4))
  rwa [hfour] at hbytes

/-- The region of a framed buffer and its last word are all that follows the status word. -/
theorem slice_append_distance {buffer : Bytes} (h : Framed buffer)
    (hwords : 3 ≤ distanceWords buffer) :
    (Region.mk (headerStart buffer + 8) (buffer.length - 4)).slice buffer
        ++ Bytes.ofNat 4 (distanceWords buffer) = buffer.drop (headerStart buffer + 8) := by
  have hlength := h.length
  have hinside := h.inside
  have hstart : headerStart buffer + 8 + (buffer.length - 4 - (headerStart buffer + 8))
      = buffer.length - 4 := by
    rw [headerStart]
    omega
  rw [ofNat_distanceWords (by omega)]
  conv_lhs => rw [← hstart, ← List.drop_drop]
  rw [hstart]
  exact List.take_append_drop _ _

theorem length_slice {buffer : Bytes} (h : Framed buffer) (hwords : 3 ≤ distanceWords buffer) :
    ((Region.mk (headerStart buffer + 8) (buffer.length - 4)).slice buffer).length
      = 4 * (distanceWords buffer - 3) := by
  have hinside := h.inside
  simp only [Region.slice, List.length_take, List.length_drop, headerStart]
  omega

theorem frameRegion_slice {buffer : Bytes} (h : Framed buffer)
    (hwords : 3 ≤ distanceWords buffer) :
    Response.frameRegion {
        value := buffer.take (headerStart buffer)
        commandClass := buffer.getD (headerStart buffer + 2) 0
        command := buffer.getD (headerStart buffer + 3) 0
        status := .ofWord (Bytes.toU32 ((buffer.drop (headerStart buffer + 4)).take 4)) }
      ((Region.mk (headerStart buffer + 8) (buffer.length - 4)).slice buffer) = buffer := by
  obtain ⟨m1, m0, c1, c0, s3, s2, s1, s0, rest, hdrop, -⟩ :=
    exists_words_at_header h.room h.inside
  have hmagic : [0xC0, 0xDE] = [m1, m0] := by
    have := h.magic
    rw [hdrop] at this
    exact this.symm
  have hclass : buffer.getD (headerStart buffer + 2) 0 = c1 := by
    rw [List.getD_eq_getElem?_getD, ← List.getElem?_drop, hdrop]
    rfl
  have hcommand : buffer.getD (headerStart buffer + 3) 0 = c0 := by
    rw [List.getD_eq_getElem?_getD, ← List.getElem?_drop, hdrop]
    rfl
  have hstatus : (buffer.drop (headerStart buffer + 4)).take 4 = [s3, s2, s1, s0] := by
    rw [← List.drop_drop, hdrop]
    rfl
  have hrest : buffer.drop (headerStart buffer + 8) = rest := by
    rw [← List.drop_drop, hdrop]
    rfl
  have hthree : distanceWords buffer - 3 + 3 = distanceWords buffer := by omega
  rw [Response.frameRegion_of_words _ (length_slice h hwords), hthree,
    slice_append_distance h hwords, hrest]
  simp only [hclass, hcommand, hstatus, Status.toWord_ofWord]
  rw [Bytes.ofU32_toU32 rfl]
  calc buffer.take (headerStart buffer)
        ++ ([0xC0, 0xDE] ++ [c1, c0] ++ [s3, s2, s1, s0] ++ rest)
      = buffer.take (headerStart buffer)
        ++ (m1 :: m0 :: c1 :: c0 :: s3 :: s2 :: s1 :: s0 :: rest) := by rw [hmagic]; rfl
    _ = buffer := by rw [← hdrop, List.take_append_drop]

/-- A distance of two words is the status word itself. -/
theorem words_of_two {buffer : Bytes} (h : Framed buffer) (htwo : distanceWords buffer = 2) :
    buffer = buffer.take (headerStart buffer) ++ (buffer.drop (headerStart buffer)).take 4
        ++ [0, 0, 0, 2] ∧
      (buffer.drop (headerStart buffer + 4)).take 4 = [0, 0, 0, 2] := by
  have hlength := h.length
  have hlast : buffer.drop (headerStart buffer + 4) = [0, 0, 0, 2] := by
    have hstart : headerStart buffer + 4 = buffer.length - 4 := by
      rw [headerStart, htwo]
      omega
    rw [hstart, ← ofNat_distanceWords (by omega), htwo]
    rfl
  refine ⟨?_, by rw [hlast]; rfl⟩
  rw [← hlast, ← List.drop_drop, List.append_assoc, List.take_append_drop,
    List.take_append_drop]

/-- Reading the frame of a buffer. The error, if there is one, is the first of the three things that
a framed buffer has and this one lacks; all other buffers are accepted. Wanting packages changes the
region only. Of an accepted buffer whose distance is three words or more, the region lies between
status and distance, and framing the region again gives the buffer byte for byte. With a distance of
two words there is no region, and the status word is the distance word. -/
theorem frame_read_iff_framed (buffer : Bytes) :
    (∀ want e, read buffer want = .error e ↔ Refused buffer e) ∧
    (∀ want, (∃ frame, read buffer want = .ok frame) ↔ Framed buffer) ∧
    read buffer false = (read buffer true).map (fun frame => { frame with region := none }) ∧
    ∀ frame, read buffer true = .ok frame →
      frame.headerOffset = headerStart buffer ∧
      frame.value = buffer.take (headerStart buffer) ∧
      (3 ≤ distanceWords buffer →
        frame.region = some ⟨headerStart buffer + 8, buffer.length - 4⟩ ∧
        Response.frameRegion {
            value := frame.value
            commandClass := buffer.getD (headerStart buffer + 2) 0
            command := buffer.getD (headerStart buffer + 3) 0
            status := frame.status }
          ((Region.mk (headerStart buffer + 8) (buffer.length - 4)).slice buffer) = buffer) ∧
      (distanceWords buffer = 2 →
        frame.region = none ∧
        buffer = frame.value ++ (buffer.drop (headerStart buffer)).take 4 ++ [0, 0, 0, 2] ∧
        frame.status = ⟨.operationSuccessful, .commandNotSupported⟩) := by
  refine ⟨?_, ?_, ?_, ?_⟩
  · intro want e
    refine ⟨fun herror => ?_, fun h => read_of_refused h want⟩
    rcases framed_or_refused buffer with hframed | ⟨e', hrefused⟩
    · rw [read_of_framed hframed] at herror
      cases herror
    · rw [read_of_refused hrefused] at herror
      cases herror
      exact hrefused
  · intro want
    refine ⟨fun ⟨frame, hok⟩ => ?_, fun h => ⟨_, read_of_framed h want⟩⟩
    rcases framed_or_refused buffer with hframed | ⟨e, hrefused⟩
    · exact hframed
    · rw [read_of_refused hrefused] at hok
      cases hok
  · rcases framed_or_refused buffer with hframed | ⟨e, hrefused⟩
    · rw [read_of_framed hframed, read_of_framed hframed]
      simp [Except.map]
    · rw [read_of_refused hrefused, read_of_refused hrefused]
      rfl
  · intro frame hok
    rcases framed_or_refused buffer with hframed | ⟨e, hrefused⟩
    · rw [read_of_framed hframed, Except.ok.injEq] at hok
      subst hok
      refine ⟨rfl, rfl, fun hwords => ⟨by simp [hwords], frameRegion_slice hframed hwords⟩,
        fun htwo => ?_⟩
      obtain ⟨hbuffer, hstatus⟩ := words_of_two hframed htwo
      refine ⟨by simp [htwo], hbuffer, ?_⟩
      show Status.ofWord (Bytes.toU32 ((buffer.drop (headerStart buffer + 4)).take 4)) = _
      rw [hstatus]
      decide
    · rw [read_of_refused hrefused] at hok
      cases hok

/-- A buffer with a value of three bytes and a region of one word. -/
def sampleFrame : Bytes :=
  [1, 2, 3] ++ [0xC0, 0xDE, 0xA8, 1] ++ [0, 0xFE, 0, 0x0A] ++ [7, 7, 7, 7] ++ [0, 0, 0, 4]

theorem frame_read_sample :
    (read sampleFrame true
      = .ok ⟨[1, 2, 3], ⟨.genericExecutionFailure, .genericFailureInExecution⟩, 3, some ⟨11, 15⟩⟩ ∧
      3 ≤ distanceWords sampleFrame) ∧
    Response.frameRegion {
        value := [1, 2, 3]
        commandClass := sampleFrame.getD (headerStart sampleFrame + 2) 0
        command := sampleFrame.getD (headerStart sampleFrame + 3) 0
        status := ⟨.genericExecutionFailure, .genericFailureInExecution⟩ }
      ((Region.mk (headerStart sampleFrame + 8) (sampleFrame.length - 4)).slice sampleFrame)
      = sampleFrame := by
  have hread : read sampleFrame true
      = .ok ⟨[1, 2, 3], ⟨.genericExecutionFailure, .genericFailureInExecution⟩, 3,
        some ⟨11, 15⟩⟩ := by decide +kernel
  have hwords : 3 ≤ distanceWords sampleFrame := by decide +kernel
  have hback := (((frame_read_iff_framed sampleFrame).2.2.2 _ hread).2.2.1 hwords).2
  exact ⟨⟨hread, hwords⟩, hback⟩

end Frame

end FirstFailure
