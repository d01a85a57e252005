import FirstFailure.Package.Region
import FirstFailure.Proofs.Bytes
import FirstFailure.Proofs.Package.Groups
/-!
# The grammar of a package region

A region is readable when it is a row of chunks and fewer than sixteen bytes behind them. A chunk is
the wire form of one package: it starts with the magic number, tells its own length in words, and
has exactly that length. The length stands at the front, so the chunks at the front of a byte string
are determined by it, and so is the first place that neither ends the row nor starts a chunk.
`Package.readAll` finds that place, and `groups_read_iff_split` says all that follows for
`Groups.read`.
-/

namespace FirstFailure

theorem Severity.ofRaw_raw (severity : Severity) : .ofRaw severity.raw = severity := by
  cases severity <;> rfl

namespace Package

/-! ## Chunks -/

/-- The length in words that a package claims in its third and fourth byte. -/
def wordCount (bytes : Bytes) : Nat := Bytes.toNat ((bytes.drop 2).take 2)

/-- The wire form of one package. -/
structure IsChunk (chunk : Bytes) : Prop where
  magic : chunk.take 2 = [0xFB, 0xAD]
  words : 4 ≤ wordCount chunk
  length : chunk.length = 4 * wordCount chunk

/-- The package whose fields stand at the places of the header; its data follows the header. -/
def ofChunk (chunk : Bytes) : Package where
  sequenceId := Bytes.toU16 ((chunk.drop 4).take 2)
  commandClass := chunk.getD 6 0
  command := chunk.getD 7 0
  logId := Bytes.toU16 ((chunk.drop 8).take 2)
  severity := .ofRaw (chunk.getD 10 0)
  chipId := chunk.getD 11 0
  returnCode := Bytes.toU32 ((chunk.drop 12).take 4)
  data := chunk.drop 16

/-- What is wrong with bytes at `offset` that are enough for a header but do not start with a chunk,
in a region that ends at `stop`. The magic number counts before the length, and a length below that
of the header before one that is beyond the end. -/
inductive FaultAt (offset stop : Nat) (rest : Bytes) : RegionError → Prop where
  | magic : rest.take 2 ≠ [0xFB, 0xAD] →
      FaultAt offset stop rest (.invalidMagic offset (Bytes.toU16 (rest.take 2)))
  | short : rest.take 2 = [0xFB, 0xAD] → wordCount rest < 4 →
      FaultAt offset stop rest
        (.packageTooShort offset (Bytes.toU16 ((rest.drop 2).take 2)))
  | overrun : rest.take 2 = [0xFB, 0xAD] → 4 ≤ wordCount rest →
      rest.length < 4 * wordCount rest →
      FaultAt offset stop rest (.packageOverruns offset (4 * wordCount rest) stop)

/-- A byte string as chunks in a row and what follows them. -/
structure Split (bytes : Bytes) (chunks : List Bytes) (rest : Bytes) : Prop where
  covers : bytes = chunks.flatten ++ rest
  wellFormed : ∀ chunk ∈ chunks, IsChunk chunk

theorem exists_header {bytes : Bytes} (h : 16 ≤ bytes.length) :
    ∃ m1 m0 n1 n0 q1 q0 commandClass command i1 i0 severity chipId r3 r2 r1 r0 data,
      bytes = m1 :: m0 :: n1 :: n0 :: q1 :: q0 :: commandClass :: command ::
        i1 :: i0 :: severity :: chipId :: r3 :: r2 :: r1 :: r0 :: data := by
  match bytes, h with
  | m1 :: m0 :: n1 :: n0 :: q1 :: q0 :: commandClass :: command ::
      i1 :: i0 :: severity :: chipId :: r3 :: r2 :: r1 :: r0 :: data, _ =>
    exact ⟨m1, m0, n1, n0, q1, q0, commandClass, command, i1, i0, severity, chipId, r3, r2, r1,
      r0, data, rfl⟩

theorem IsChunk.header_le {chunk : Bytes} (h : IsChunk chunk) : 16 ≤ chunk.length := by
  have hwords := h.words
  rw [h.length]
  omega

theorem wordCount_append {bytes : Bytes} (h : 4 ≤ bytes.length) (rest : Bytes) :
    wordCount (bytes ++ rest) = wordCount bytes := by
  have hdrop : 2 ≤ (bytes.drop 2).length := by rw [List.length_drop]; omega
  rw [wordCount, wordCount, List.drop_append_of_le_length (by omega),
    List.take_append_of_le_length hdrop]

/-- Of two chunks at the front of the same bytes neither is longer, as both tell their length. -/
theorem IsChunk.append_inj {chunk chunk' rest rest' : Bytes} (h : IsChunk chunk)
    (h' : IsChunk chunk') (heq : chunk ++ rest = chunk' ++ rest') :
    chunk = chunk' ∧ rest = rest' := by
  have hle := h.header_le
  have hle' := h'.header_le
  have hwords : wordCount chunk = wordCount chunk' := by
    rw [← wordCount_append (by omega) rest, heq, wordCount_append (by omega) rest']
  exact List.append_inj heq (by rw [h.length, h'.length, hwords])

/-! ## One step of the reading -/

theorem readAll_short (offset : Nat) {bytes : Bytes} (h : bytes.length < 16) :
    readAll offset bytes = .ok [] := by
  rw [readAll]
  intros
  subst_vars
  simp only [List.length_cons] at h
  omega

theorem readAll_chunk (offset : Nat) {chunk : Bytes} (h : IsChunk chunk) (rest : Bytes) :
    readAll offset (chunk ++ rest)
      = (readAll (offset + chunk.length) rest).map (ofChunk chunk :: ·) := by
  obtain ⟨m1, m0, n1, n0, q1, q0, commandClass, command, i1, i0, severity, chipId, r3, r2, r1,
    r0, data, rfl⟩ := exists_header h.header_le
  have hmagic : [m1, m0] = [0xFB, 0xAD] := h.magic
  have hwords : 4 ≤ Bytes.toNat [n1, n0] := h.words
  have hlength : 16 + data.length = 4 * Bytes.toNat [n1, n0] := by
    rw [Nat.add_comm]
    exact h.length
  have hcount : (Bytes.toU16 [n1, n0]).toNat = Bytes.toNat [n1, n0] := Bytes.toNat_toU16 rfl
  have hdata : Bytes.toNat [n1, n0] * 4 - 16 = data.length := by omega
  have hsize : offset + Bytes.toNat [n1, n0] * 4 = offset + (data.length + 16) := by omega
  simp only [List.cons_append]
  rw [readAll]
  simp only [hmagic, hcount, wordSize, headerLength, headerWords, Nat.reduceMul, hdata]
  rw [if_neg (by decide), if_neg (by omega), List.take_left, if_neg (by omega), List.drop_left,
    hsize]
  simp only [List.length_cons]
  cases readAll (offset + (data.length + 16)) rest with
  | ok others => rfl
  | error e => rfl

/-- Bytes that could hold a header but have a fault end the reading with that fault. -/
theorem readAll_fault {offset : Nat} {rest : Bytes} {e : RegionError} (hle : 16 ≤ rest.length)
    (h : FaultAt offset (offset + rest.length) rest e) : readAll offset rest = .error e := by
  obtain ⟨m1, m0, n1, n0, q1, q0, commandClass, command, i1, i0, severity, chipId, r3, r2, r1,
    r0, data, rfl⟩ := exists_header hle
  have hcount : (Bytes.toU16 [n1, n0]).toNat = Bytes.toNat [n1, n0] := Bytes.toNat_toU16 rfl
  rw [readAll]
  simp only [hcount, wordSize, headerLength, headerWords, Nat.reduceMul]
  cases h with
  | magic hmagic =>
    have hne : Bytes.toU16 [m1, m0] ≠ magic :=
      fun heq => hmagic ((Bytes.toU16_eq_iff rfl magic).mp heq)
    rw [if_pos hne]
    rfl
  | short hmagic hwords =>
    have hfew : Bytes.toNat [n1, n0] < 4 := hwords
    rw [show [m1, m0] = [0xFB, 0xAD] from hmagic, if_neg (by decide), if_pos (by omega)]
    rfl
  | overrun hmagic hwords hlong =>
    have hmany : 4 ≤ Bytes.toNat [n1, n0] := hwords
    have hbeyond : data.length + 16 < 4 * Bytes.toNat [n1, n0] := hlong
    rw [show [m1, m0] = [0xFB, 0xAD] from hmagic, if_neg (by decide), if_neg (by omega),
      if_pos (by rw [List.length_take]; omega)]
    simp only [List.length_cons, wordCount, List.drop_succ_cons, List.drop_zero,
      List.take_succ_cons, List.take_zero]
    congr 2
    · omega
    · omega

/-- Bytes start with a chunk or have a fault. -/
theorem chunk_or_fault (offset stop : Nat) (rest : Bytes) :
    (∃ chunk after, rest = chunk ++ after ∧ IsChunk chunk) ∨ ∃ e, FaultAt offset stop rest e := by
  by_cases hmagic : rest.take 2 = [0xFB, 0xAD]
  · by_cases hwords : 4 ≤ wordCount rest
    · by_cases hlength : 4 * wordCount rest ≤ rest.length
      · left
        refine ⟨rest.take (4 * wordCount rest), rest.drop (4 * wordCount rest),
          (List.take_append_drop _ _).symm, ?_⟩
        have hlen : (rest.take (4 * wordCount rest)).length = 4 * wordCount rest := by
          rw [List.length_take]
          omega
        have hcount : wordCount (rest.take (4 * wordCount rest)) = wordCount rest := by
          conv_rhs => rw [← List.take_append_drop (4 * wordCount rest) rest]
          rw [wordCount_append (by omega)]
        refine ⟨?_, by rw [hcount]; exact hwords, by rw [hcount]; exact hlen⟩
        rw [List.take_take, Nat.min_eq_left (by omega)]
        exact hmagic
      · exact Or.inr ⟨_, .overrun hmagic hwords (by omega)⟩
    · exact Or.inr ⟨_, .short hmagic (by omega)⟩
  · exact Or.inr ⟨_, .magic hmagic⟩

/-! ## The whole row -/

/-- Every byte string is a row of chunks up to a place that starts no chunk: what is left there is
too short for a header or has a fault. -/
theorem exists_split (offset stop : Nat) (bytes : Bytes) :
    ∃ chunks rest, Split bytes chunks rest ∧
      (rest.length < 16 ∨
        16 ≤ rest.length ∧ ∃ e, FaultAt (offset + chunks.flatten.length) stop rest e) := by
  induction h : bytes.length using Nat.strongRecOn generalizing offset bytes with
  | ind n ih =>
    subst h
    by_cases hshort : bytes.length < 16
    · exact ⟨[], bytes, ⟨by simp, by simp⟩, Or.inl hshort⟩
    · rcases chunk_or_fault offset stop bytes with ⟨chunk, after, rfl, hchunk⟩ | ⟨e, hfault⟩
      · have hle := hchunk.header_le
        obtain ⟨chunks, rest, hsplit, hend⟩ :=
          ih after.length (by rw [List.length_append]; omega) (offset + chunk.length) after rfl
        refine ⟨chunk :: chunks, rest, ⟨?_, ?_⟩, ?_⟩
        · rw [List.flatten_cons, List.append_assoc, ← hsplit.covers]
        · rintro c (_ | ⟨_, hc⟩)
          · exact hchunk
          · exact hsplit.wellFormed c hc
        · rwa [List.flatten_cons, List.length_append, ← Nat.add_assoc]
      · exact ⟨[], bytes, ⟨by simp, by simp⟩, Or.inr ⟨by omega, e, by simpa using hfault⟩⟩

theorem readAll_flatten (offset : Nat) {chunks : List Bytes} (h : ∀ chunk ∈ chunks, IsChunk chunk)
    (rest : Bytes) :
    readAll offset (chunks.flatten ++ rest)
      = (readAll (offset + chunks.flatten.length) rest).map (chunks.map ofChunk ++ ·) := by
  induction chunks generalizing offset with
  | nil => cases hread : readAll offset rest <;> simp [hread, Except.map]
  | cons chunk chunks ih =>
    rw [List.flatten_cons, List.append_assoc, readAll_chunk offset (h chunk (by simp)),
      ih (offset + chunk.length) (fun c hc => h c (by simp [hc])), List.length_append,
      ← Nat.add_assoc]
    cases readAll (offset + chunk.length + chunks.flatten.length) rest <;> simp [Except.map]

theorem readAll_of_split {bytes tail : Bytes} {chunks : List Bytes} (offset : Nat)
    (h : Split bytes chunks tail) (htail : tail.length < 16) :
    readAll offset bytes = .ok (chunks.map ofChunk) := by
  rw [h.covers, readAll_flatten offset h.wellFormed, readAll_short _ htail]
  simp [Except.map]

/-- The first fault behind the chunks is the error of the region. -/
theorem readAll_of_fault {bytes rest : Bytes} {chunks : List Bytes} {offset : Nat}
    {e : RegionError} (h : Split bytes chunks rest) (hrest : 16 ≤ rest.length)
    (hfault : FaultAt (offset + chunks.flatten.length) (offset + bytes.length) rest e) :
    readAll offset bytes = .error e := by
  have hstop : offset + bytes.length = offset + chunks.flatten.length + rest.length := by
    rw [h.covers, List.length_append, Nat.add_assoc]
  rw [hstop] at hfault
  rw [h.covers, readAll_flatten offset h.wellFormed, readAll_fault hrest hfault]
  rfl

/-- The readable regions are the rows of chunks with a short tail. -/
theorem readAll_eq_ok_iff {offset : Nat} {bytes : Bytes} {packages : List Package} :
    readAll offset bytes = .ok packages ↔
      ∃ chunks tail, Split bytes chunks tail ∧ tail.length < 16 ∧
        packages = chunks.map ofChunk := by
  constructor
  · intro hok
    obtain ⟨chunks, rest, hsplit, hshort | ⟨hlong, e, hfault⟩⟩ :=
      exists_split offset (offset + bytes.length) bytes
    · rw [readAll_of_split offset hsplit hshort, Except.ok.injEq] at hok
      exact ⟨chunks, rest, hsplit, hshort, hok.symm⟩
    · rw [readAll_of_fault hsplit hlong hfault] at hok
      cases hok
  · rintro ⟨chunks, tail, hsplit, hshort, rfl⟩
    exact readAll_of_split offset hsplit hshort

/-- There is one way only to see a byte string as chunks and a short tail. -/
theorem Split.unique {bytes tail tail' : Bytes} {chunks chunks' : List Bytes}
    (h : Split bytes chunks tail) (htail : tail.length < 16)
    (h' : Split bytes chunks' tail') (htail' : tail'.length < 16) :
    chunks = chunks' ∧ tail = tail' := by
  obtain ⟨hcovers, hchunks⟩ := h
  obtain ⟨hcovers', hchunks'⟩ := h'
  induction chunks generalizing bytes chunks' with
  | nil =>
    cases chunks' with
    | nil =>
      rw [hcovers] at hcovers'
      exact ⟨rfl, by simpa using hcovers'⟩
    | cons chunk' chunks' =>
      -- A chunk does not fit into a tail.
      have hle := (hchunks' chunk' (by simp)).header_le
      have hlen := congrArg List.length (hcovers.symm.trans hcovers')
      simp only [List.flatten_nil, List.nil_append, List.flatten_cons, List.length_append] at hlen
      omega
  | cons chunk chunks ih =>
    cases chunks' with
    | nil =>
      have hle := (hchunks chunk (by simp)).header_le
      have hlen := congrArg List.length (hcovers.symm.trans hcovers')
      simp only [List.flatten_nil, List.nil_append, List.flatten_cons, List.length_append] at hlen
      omega
    | cons chunk' chunks' =>
      rw [hcovers, List.flatten_cons, List.flatten_cons, List.append_assoc,
        List.append_assoc] at hcovers'
      obtain ⟨hfirst, hothers⟩ :=
        (hchunks chunk (by simp)).append_inj (hchunks' chunk' (by simp)) hcovers'
      obtain ⟨hrest, htails⟩ := ih rfl (fun c hc => hchunks c (by simp [hc])) hothers
        (fun c hc => hchunks' c (by simp [hc]))
      exact ⟨by rw [hfirst, hrest], htails⟩

/-! ## Chunks and encodings -/

theorem ofChunk_header (package : Package) (lengthWords : Nat) (data : Bytes) :
    ofChunk (package.header lengthWords ++ data)
      = { package with severity := .ofRaw package.severity.raw, data := data } := by
  have hsequence := Bytes.toU16_ofU16 package.sequenceId
  have hlog := Bytes.toU16_ofU16 package.logId
  have hcode := Bytes.toU32_ofU32 package.returnCode
  show Package.mk (Bytes.toU16 (Bytes.ofU16 package.logId))
    (Bytes.toU16 (Bytes.ofU16 package.sequenceId)) package.commandClass package.command
    (.ofRaw package.severity.raw) package.chipId (Bytes.toU32 (Bytes.ofU32 package.returnCode))
    data = _
  rw [hsequence, hlog, hcode]

theorem length_header (package : Package) (lengthWords : Nat) :
    (package.header lengthWords).length = 16 := by
  simp [header]

theorem encode_of_unaligned {package : Package} (h : package.data.length % 4 ≠ 0) :
    package.encode = .error (.unalignedData package.data.length) := by
  unfold encode
  exact if_pos h

theorem encode_of_tooLarge {package : Package} (h : package.data.length % 4 = 0)
    (hlarge : 4 * 65535 < 16 + package.data.length) :
    package.encode = .error (.packageTooLarge (16 + package.data.length)) := by
  have hwords : ¬ (16 + package.data.length) / 4 < 65536 := by omega
  unfold encode
  exact (if_neg (not_not_intro h)).trans (if_neg hwords)

theorem encode_of_fits {package : Package} (h : package.data.length % 4 = 0)
    (hfits : 16 + package.data.length ≤ 4 * 65535) :
    package.encode
      = .ok (package.header ((16 + package.data.length) / 4) ++ package.data) := by
  have hwords : (16 + package.data.length) / 4 < 65536 := by omega
  unfold encode
  exact (if_neg (not_not_intro h)).trans (if_pos hwords)

/-- What `Package.encode` writes is a chunk of the package. -/
theorem isChunk_of_encode {package : Package} {bytes : Bytes} (h : package.encode = .ok bytes) :
    IsChunk bytes ∧ ofChunk bytes = package := by
  by_cases haligned : package.data.length % 4 = 0
  · by_cases hfits : 16 + package.data.length ≤ 4 * 65535
    · rw [encode_of_fits haligned hfits, Except.ok.injEq] at h
      subst h
      have hwords : wordCount (package.header ((16 + package.data.length) / 4) ++ package.data)
          = (16 + package.data.length) / 4 := by
        rw [wordCount_append (by rw [length_header]; omega)]
        show Bytes.toNat (Bytes.ofNat 2 ((16 + package.data.length) / 4)) = _
        rw [Bytes.toNat_ofNat, Nat.mod_eq_of_lt (by omega)]
      refine ⟨⟨rfl, by rw [hwords]; omega, ?_⟩, ?_⟩
      · rw [hwords, List.length_append, length_header]
        omega
      · rw [ofChunk_header, Severity.ofRaw_raw]
    · rw [encode_of_tooLarge haligned (by omega)] at h
      cases h
  · rw [encode_of_unaligned haligned] at h
    cases h

/-- The package of a chunk has a wire form: the chunk with the severity byte made canonical. -/
theorem encode_ofChunk {chunk : Bytes} (h : IsChunk chunk) :
    (ofChunk chunk).encode = .ok (chunk.set 10 (Severity.ofRaw (chunk.getD 10 0)).raw) := by
  obtain ⟨m1, m0, n1, n0, q1, q0, commandClass, command, i1, i0, severity, chipId, r3, r2, r1,
    r0, data, rfl⟩ := exists_header h.header_le
  have hmagic : [m1, m0] = [0xFB, 0xAD] := h.magic
  have hwords : 4 ≤ Bytes.toNat [n1, n0] := h.words
  have hlength : 16 + data.length = 4 * Bytes.toNat [n1, n0] := by
    rw [Nat.add_comm]
    exact h.length
  have hlt : Bytes.toNat [n1, n0] < 65536 := by simpa using Bytes.toNat_lt [n1, n0]
  have hcount : (16 + data.length) / 4 = Bytes.toNat [n1, n0] := by omega
  have hbytes : Bytes.ofNat 2 (Bytes.toNat [n1, n0]) = [n1, n0] := Bytes.ofNat_toNat [n1, n0]
  have hsequence : Bytes.ofU16 (Bytes.toU16 [q1, q0]) = [q1, q0] := Bytes.ofU16_toU16 rfl
  have hlog : Bytes.ofU16 (Bytes.toU16 [i1, i0]) = [i1, i0] := Bytes.ofU16_toU16 rfl
  have hcode : Bytes.ofU32 (Bytes.toU32 [r3, r2, r1, r0]) = [r3, r2, r1, r0] :=
    Bytes.ofU32_toU32 rfl
  simp only [List.cons.injEq, and_true] at hmagic
  rw [encode_of_fits (by show data.length % 4 = 0; omega)
    (by show 16 + data.length ≤ 4 * 65535; omega)]
  show Except.ok (Bytes.ofU16 magic ++ Bytes.ofNat 2 ((16 + data.length) / 4)
    ++ Bytes.ofU16 (Bytes.toU16 [q1, q0]) ++ [commandClass, command]
    ++ Bytes.ofU16 (Bytes.toU16 [i1, i0]) ++ [(Severity.ofRaw severity).raw, chipId]
    ++ Bytes.ofU32 (Bytes.toU32 [r3, r2, r1, r0]) ++ data) = _
  rw [hcount, hbytes, hsequence, hlog, hcode, hmagic.1, hmagic.2]
  rfl

/-! ## What reading a region gives -/

theorem groups_read_of_inside {buffer : Bytes} {region : Region}
    (hstart : region.start ≤ region.stop) (hstop : region.stop ≤ buffer.length) :
    Groups.read buffer region
      = (readAll region.start (region.slice buffer)).map Groups.ofList := by
  rw [Groups.read, if_neg (by omega)]

/-- Reading a region of a buffer. A region that is not part of the buffer is refused. Else the
region is readable exactly when it is a row of chunks with fewer than sixteen bytes behind them;
the groups are then made by inserting the packages of the chunks one by one, and every one of these
has a wire form, which is its chunk but for the severity byte. There is one such row at most. In all
other cases the error is the fault at the first place that starts no chunk. Bytes outside the region
have no influence. -/
theorem groups_read_iff_split (buffer : Bytes) (region : Region) :
    (region.stop < region.start ∨ buffer.length < region.stop →
      Groups.read buffer region = .error (.outOfBounds region buffer.length)) ∧
    (region.start ≤ region.stop → region.stop ≤ buffer.length →
      (∀ groups, Groups.read buffer region = .ok groups ↔
        ∃ chunks tail, Split (region.slice buffer) chunks tail ∧ tail.length < 16 ∧
          groups = (chunks.map ofChunk).foldl Groups.insert .empty) ∧
      (∀ chunks tail chunks' tail',
        Split (region.slice buffer) chunks tail → tail.length < 16 →
        Split (region.slice buffer) chunks' tail' → tail'.length < 16 →
        chunks = chunks' ∧ tail = tail') ∧
      (∀ chunks tail, Split (region.slice buffer) chunks tail → ∀ chunk ∈ chunks,
        (ofChunk chunk).encode
          = .ok (chunk.set 10 (Severity.ofRaw (chunk.getD 10 0)).raw)) ∧
      (∀ e, Groups.read buffer region = .error e ↔
        ∃ chunks rest, Split (region.slice buffer) chunks rest ∧ 16 ≤ rest.length ∧
          FaultAt (region.start + chunks.flatten.length) region.stop rest e) ∧
      ∀ buffer' : Bytes, region.stop ≤ buffer'.length →
        region.slice buffer' = region.slice buffer →
        Groups.read buffer' region = Groups.read buffer region) := by
  refine ⟨fun hout => by rw [Groups.read, if_pos hout], fun hstart hstop => ?_⟩
  have hread := groups_read_of_inside hstart hstop
  have hend : region.start + (region.slice buffer).length = region.stop := by
    rw [Region.slice, List.length_take, List.length_drop]
    omega
  have hsplit := exists_split region.start region.stop (region.slice buffer)
  refine ⟨?_, ?_, ?_, ?_, ?_⟩
  · intro groups
    constructor
    · intro hok
      obtain ⟨chunks, rest, hrow, hshort | ⟨hlong, e, hfault⟩⟩ := hsplit
      · rw [hread, readAll_of_split region.start hrow hshort] at hok
        cases hok
        exact ⟨chunks, rest, hrow, hshort, Groups.ofList_eq_foldl_insert _⟩
      · rw [← hend] at hfault
        rw [hread, readAll_of_fault hrow hlong hfault] at hok
        cases hok
    · rintro ⟨chunks, tail, hrow, hshort, rfl⟩
      rw [hread, readAll_of_split region.start hrow hshort, ← Groups.ofList_eq_foldl_insert]
      rfl
  · intro chunks tail chunks' tail' hrow hshort hrow' hshort'
    exact hrow.unique hshort hrow' hshort'
  · intro chunks tail hrow chunk hchunk
    exact encode_ofChunk (hrow.wellFormed chunk hchunk)
  · intro e
    constructor
    · intro herror
      obtain ⟨chunks, rest, hrow, hshort | ⟨hlong, e', hfault⟩⟩ := hsplit
      · rw [hread, readAll_of_split region.start hrow hshort] at herror
        cases herror
      · refine ⟨chunks, rest, hrow, hlong, ?_⟩
        have hfault' := hfault
        rw [← hend] at hfault'
        rw [hread, readAll_of_fault hrow hlong hfault'] at herror
        cases herror
        exact hfault
    · rintro ⟨chunks, rest, hrow, hlong, hfault⟩
      rw [← hend] at hfault
      rw [hread, readAll_of_fault hrow hlong hfault]
      rfl
  · intro buffer' hstop' hslice
    rw [groups_read_of_inside hstart hstop', hslice, hread]

/-- A region of two chunks and a tail inside a buffer. -/
def sampleBuffer : Bytes :=
  [0xEE] ++ [0xFB, 0xAD, 0, 4, 0, 1, 0xA8, 1, 0, 7, 0x33, 0, 0, 0, 0, 2]
    ++ [0xFB, 0xAD, 0, 5, 0, 2, 0xA8, 1, 0, 7, 0x10, 0, 0, 0, 0, 3, 9, 9, 9, 9] ++ [1, 2, 3, 4]

theorem groups_read_two_chunks :
    (1 ≤ 40 ∧ 40 ≤ sampleBuffer.length) ∧
    Groups.read sampleBuffer ⟨1, 40⟩
      = .ok ((([[0xFB, 0xAD, 0, 4, 0, 1, 0xA8, 1, 0, 7, 0x33, 0, 0, 0, 0, 2],
        [0xFB, 0xAD, 0, 5, 0, 2, 0xA8, 1, 0, 7, 0x10, 0, 0, 0, 0, 3, 9, 9, 9, 9]] : List Bytes).map
          ofChunk).foldl Groups.insert .empty) := by
  refine ⟨by decide, ?_⟩
  refine (((groups_read_iff_split sampleBuffer ⟨1, 40⟩).2 (by decide) (by decide)).1 _).mpr
    ⟨_, [1, 2, 3], ⟨by decide, ?_⟩, by decide, rfl⟩
  rintro chunk (_ | ⟨_, _ | ⟨_, ⟨⟩⟩⟩)
  · exact ⟨by decide, by decide, by decide⟩
  · exact ⟨by decide, by decide, by decide⟩

end Package

end FirstFailure
