import FirstFailure.Proofs.Package.Chunks
import FirstFailure.Proofs.Response.Framing
import FirstFailure.Response.Contents
import Mathlib.Algebra.Ring.Nat
import Mathlib.Data.List.Forall2
/-!
# Reading undoes writing

A response has a wire form unless some package has none, and then the first such package tells why.
Reading the wire form gives the response back: its value, its status, its packages in a region that
holds their wire forms and nothing else, and the groups that inserting the packages makes. The only
condition is that the distance from header to end fits into its four bytes.
-/

namespace FirstFailure

namespace Package

/-! ## Which packages have a wire form -/

/-- Why a package has no wire form: its data ends within a word, or is whole words but too many of
them for a length of 16 bits. -/
inductive Refused (package : Package) : EncodeError → Prop where
  | unaligned : package.data.length % 4 ≠ 0 →
      Refused package (.unalignedData package.data.length)
  | tooLarge : package.data.length % 4 = 0 → 4 * 65535 < 16 + package.data.length →
      Refused package (.packageTooLarge (16 + package.data.length))

theorem encode_eq_error_iff (package : Package) (e : EncodeError) :
    package.encode = .error e ↔ package.Refused e := by
  constructor
  · intro h
    by_cases haligned : package.data.length % 4 = 0
    · by_cases hfits : 16 + package.data.length ≤ 4 * 65535
      · rw [encode_of_fits haligned hfits] at h
        cases h
      · rw [encode_of_tooLarge haligned (by omega)] at h
        cases h
        exact .tooLarge haligned (by omega)
    · rw [encode_of_unaligned haligned] at h
      cases h
      exact .unaligned haligned
  · rintro (haligned | ⟨haligned, hlarge⟩)
    · exact encode_of_unaligned haligned
    · exact encode_of_tooLarge haligned hlarge

theorem encodeAll_eq_ok_iff (packages : List Package) (bytes : Bytes) :
    encodeAll packages = .ok bytes ↔
      ∃ chunks : List Bytes,
        List.Forall₂ (fun package chunk => package.encode = .ok chunk) packages chunks ∧
        bytes = chunks.flatten := by
  induction packages generalizing bytes with
  | nil => simp [encodeAll, eq_comm]
  | cons package rest ih =>
    constructor
    · intro h
      cases hfirst : package.encode with
      | error e => simp [encodeAll, hfirst, bind, Except.bind] at h
      | ok chunk =>
        cases hrest : encodeAll rest with
        | error e => simp [encodeAll, hfirst, hrest, bind, Except.bind] at h
        | ok others =>
          obtain ⟨chunks, hchunks, rfl⟩ := (ih others).mp hrest
          simp only [encodeAll, hfirst, hrest, bind, Except.bind, pure, Except.pure,
            Except.ok.injEq] at h
          exact ⟨chunk :: chunks, .cons hfirst hchunks, h.symm⟩
    · rintro ⟨chunks, hchunks, rfl⟩
      cases hchunks with
      | cons hfirst hrest =>
        simp only [encodeAll, hfirst, (ih _).mpr ⟨_, hrest, rfl⟩, bind, Except.bind, pure,
          Except.pure, List.flatten_cons]

/-- The error of packages is that of the first that has no wire form. -/
theorem encodeAll_eq_error_iff (packages : List Package) (e : EncodeError) :
    encodeAll packages = .error e ↔
      ∃ before package after, packages = before ++ package :: after ∧
        (∀ earlier ∈ before, ∀ e', ¬ earlier.Refused e') ∧ package.Refused e := by
  induction packages with
  | nil => simp [encodeAll]
  | cons package rest ih =>
    cases hfirst : package.encode with
    | error e' =>
      have hrefused := (encode_eq_error_iff package e').mp hfirst
      simp only [encodeAll, hfirst, bind, Except.bind, Except.error.injEq]
      constructor
      · rintro rfl
        exact ⟨[], package, rest, rfl, by simp, hrefused⟩
      · rintro ⟨_ | ⟨earlier, before⟩, other, after, hpackages, hbefore, hother⟩
        · cases hpackages
          have herror := (encode_eq_error_iff package e).mpr hother
          rw [hfirst] at herror
          exact Except.error.inj herror
        · cases hpackages
          exact absurd hrefused (hbefore package (by simp) e')
    | ok chunk =>
      have hfine : ∀ e', ¬ package.Refused e' := by
        intro e' hrefused
        rw [(encode_eq_error_iff package e').mpr hrefused] at hfirst
        cases hfirst
      have hrest : encodeAll (package :: rest) = .error e ↔ encodeAll rest = .error e := by
        cases hothers : encodeAll rest <;>
          simp [encodeAll, hfirst, hothers, bind, Except.bind, pure, Except.pure]
      rw [hrest, ih]
      constructor
      · rintro ⟨before, other, after, rfl, hbefore, hother⟩
        refine ⟨package :: before, other, after, rfl, ?_, hother⟩
        rintro earlier (_ | ⟨_, hearlier⟩)
        · exact hfine
        · exact hbefore earlier hearlier
      · rintro ⟨_ | ⟨earlier, before⟩, other, after, hpackages, hbefore, hother⟩
        · cases hpackages
          exact absurd hother (hfine e)
        · cases hpackages
          exact ⟨before, other, after, rfl, fun x hx => hbefore x (by simp [hx]), hother⟩

theorem split_of_encodings {packages : List Package} {chunks : List Bytes}
    (h : List.Forall₂ (fun package chunk => package.encode = .ok chunk) packages chunks) :
    Split chunks.flatten chunks [] ∧ chunks.map ofChunk = packages := by
  induction h with
  | nil => exact ⟨⟨by simp, by simp⟩, rfl⟩
  | cons hfirst _ ih =>
    obtain ⟨hchunk, hpackage⟩ := isChunk_of_encode hfirst
    refine ⟨⟨by simp, ?_⟩, by rw [List.map_cons, hpackage, ih.2]⟩
    rintro c (_ | ⟨_, hc⟩)
    · exact hchunk
    · exact ih.1.wellFormed c hc

theorem length_of_encodings {packages : List Package} {chunks : List Bytes}
    (h : List.Forall₂ (fun package chunk => package.encode = .ok chunk) packages chunks) :
    chunks.flatten.length = (packages.map fun package => 16 + package.data.length).sum := by
  induction h with
  | nil => rfl
  | @cons package chunk packages chunks hfirst _ ih =>
    obtain ⟨hchunk, hpackage⟩ := isChunk_of_encode hfirst
    have hle := hchunk.header_le
    have hdata : package.data.length = chunk.length - 16 := by
      rw [← hpackage]
      exact List.length_drop
    rw [List.flatten_cons, List.length_append, ih, List.map_cons, List.sum_cons]
    omega

theorem not_refused_of_encodings {packages : List Package} {chunks : List Bytes}
    (h : List.Forall₂ (fun package chunk => package.encode = .ok chunk) packages chunks) :
    ∀ package ∈ packages, ∀ e, ¬ package.Refused e := by
  induction h with
  | nil => simp
  | cons hfirst _ ih =>
    rintro package (_ | ⟨_, hpackage⟩) e hrefused
    · rw [(encode_eq_error_iff _ e).mpr hrefused] at hfirst
      cases hfirst
    · exact ih package hpackage e hrefused

theorem length_flatten_chunks {chunks : List Bytes} (h : ∀ chunk ∈ chunks, IsChunk chunk) :
    ∃ words, chunks.flatten.length = 4 * words := by
  induction chunks with
  | nil => exact ⟨0, rfl⟩
  | cons chunk chunks ih =>
    obtain ⟨words, hwords⟩ := ih (fun c hc => h c (by simp [hc]))
    refine ⟨wordCount chunk + words, ?_⟩
    rw [List.flatten_cons, List.length_append, (h chunk (by simp)).length, hwords]
    omega

end Package

namespace Response

/-! ## Framing leads back to the header -/

theorem distanceWords_append (front : Bytes) {words : Nat} (h : words < 2 ^ 32) :
    Frame.distanceWords (front ++ Bytes.ofNat 4 words) = words := by
  have hfour : (front ++ Bytes.ofNat 4 words).length - 4 = front.length := by simp
  rw [Frame.distanceWords, hfour, List.drop_left, Bytes.toNat_ofNat]
  exact Nat.mod_eq_of_lt h

/-- What stands before the header of a framed region is the value, and the buffer is framed. -/
theorem framed_frameRegion (response : Response) {region : Bytes} {words : Nat}
    (h : region.length = 4 * words) (hfits : words + 3 < 2 ^ 32) :
    Frame.Framed (response.frameRegion region) ∧
      Frame.distanceWords (response.frameRegion region) = words + 3 ∧
      Frame.headerStart (response.frameRegion region) = response.value.length := by
  have hlength : (response.frameRegion region).length
      = response.value.length + 4 * (words + 3) := by
    rw [frameRegion_of_words response h]
    simp only [List.length_append, Bytes.length_ofU16, Bytes.length_ofU32, Bytes.length_ofNat,
      List.length_cons, List.length_nil, h]
    omega
  have hdistance : Frame.distanceWords (response.frameRegion region) = words + 3 := by
    rw [frameRegion_of_words response h, ← List.append_assoc, ← List.append_assoc,
      distanceWords_append _ hfits]
  have hstart : Frame.headerStart (response.frameRegion region) = response.value.length := by
    rw [Frame.headerStart, hdistance, hlength]
    omega
  refine ⟨⟨by rw [hlength]; omega, by rw [hdistance]; omega, by rw [hdistance, hlength]; omega, ?_⟩,
    hdistance, hstart⟩
  rw [hstart, frameRegion_of_words response h, List.drop_left]
  rfl

/-- Reading a framed region gives value, status and region back. -/
theorem read_frameRegion (response : Response) {region : Bytes} {words : Nat}
    (h : region.length = 4 * words) (hfits : words + 3 < 2 ^ 32) :
    Frame.read (response.frameRegion region) true = .ok {
        value := response.value
        status := ⟨.ofRaw response.status.primary.raw, .ofRaw response.status.secondary.raw⟩
        headerOffset := response.value.length
        region := some ⟨response.value.length + 8, response.value.length + 8 + region.length⟩ } ∧
      (Region.mk (response.value.length + 8) (response.value.length + 8 + region.length)).slice
        (response.frameRegion region) = region := by
  obtain ⟨hframed, hdistance, hstart⟩ := framed_frameRegion response h hfits
  have hbuffer := frameRegion_of_words response h
  have hlength : (response.frameRegion region).length - 4
      = response.value.length + 8 + region.length := by
    rw [hbuffer]
    simp only [List.length_append, Bytes.length_ofU16, Bytes.length_ofU32, Bytes.length_ofNat,
      List.length_cons, List.length_nil]
    omega
  have hvalue : (response.frameRegion region).take response.value.length = response.value := by
    rw [hbuffer, List.take_left]
  have hstatus : ((response.frameRegion region).drop (response.value.length + 4)).take 4
      = Bytes.ofU32 response.status.toWord := by
    rw [hbuffer, ← List.drop_drop, List.drop_left]
    rfl
  have hregion : (response.frameRegion region).drop (response.value.length + 8)
      = region ++ Bytes.ofNat 4 (words + 3) := by
    rw [hbuffer, ← List.drop_drop, List.drop_left]
    rfl
  constructor
  · rw [Frame.read_of_framed hframed, hdistance, hstart, hvalue, hstatus, hlength,
      Bytes.toU32_ofU32, Status.ofWord_toWord]
    simp
  · have hlen : response.value.length + 8 + region.length - (response.value.length + 8)
        = region.length := by omega
    simp only [Region.slice, hregion, hlen, List.take_left]

/-! ## Responses and their contents -/

theorem encode_eq_error_iff (response : Response) (e : EncodeError) :
    response.encode = .error e ↔ Package.encodeAll response.packages = .error e := by
  rw [encode]
  cases Package.encodeAll response.packages <;> simp [Except.map]

theorem encode_eq_ok_iff (response : Response) (buffer : Bytes) :
    response.encode = .ok buffer ↔
      ∃ encoded, Package.encodeAll response.packages = .ok encoded ∧
        buffer = response.frameRegion encoded := by
  rw [encode]
  cases Package.encodeAll response.packages <;> simp [Except.map, eq_comm]

/-- Writing a response and reading it. Writing fails when some package has no wire form, with the
error of the first one. Otherwise reading gives back the value, its length as the place of the
header, the status of the raw codes, a region that holds the wire forms of the packages in a row,
and the groups that inserting the packages one by one makes. The bound on the wire forms is that of
the distance, which takes up 32 bits. -/
theorem read_encode (response : Response) :
    (∀ e, response.encode = .error e ↔
      ∃ before package after, response.packages = before ++ package :: after ∧
        (∀ earlier ∈ before, ∀ e', ¬ earlier.Refused e') ∧ package.Refused e) ∧
    ((∃ e, response.encode = .error e) ↔
      ∃ package ∈ response.packages, ∃ e, package.Refused e) ∧
    ∀ buffer, response.encode = .ok buffer →
      (response.packages.map fun package => 16 + package.data.length).sum ≤ 2 ^ 34 - 16 →
      ∃ region chunks,
        Contents.read buffer = .ok {
          frame := {
            value := response.value
            status := ⟨.ofRaw response.status.primary.raw, .ofRaw response.status.secondary.raw⟩
            headerOffset := response.value.length
            region := some region }
          groups := response.packages.foldl Groups.insert .empty } ∧
        region.slice buffer = chunks.flatten ∧
        List.Forall₂ (fun package chunk => package.encode = .ok chunk) response.packages
          chunks := by
  refine ⟨fun e => ?_, ?_, ?_⟩
  · rw [encode_eq_error_iff, Package.encodeAll_eq_error_iff]
  · constructor
    · rintro ⟨e, herror⟩
      rw [encode_eq_error_iff, Package.encodeAll_eq_error_iff] at herror
      obtain ⟨before, package, after, hpackages, -, hrefused⟩ := herror
      exact ⟨package, by simp [hpackages], e, hrefused⟩
    · rintro ⟨package, hmem, e, hrefused⟩
      cases hall : Package.encodeAll response.packages with
      | error e' => exact ⟨e', (encode_eq_error_iff response e').mpr hall⟩
      | ok encoded =>
        obtain ⟨chunks, hchunks, -⟩ := (Package.encodeAll_eq_ok_iff _ _).mp hall
        exact absurd hrefused (Package.not_refused_of_encodings hchunks package hmem e)
  · intro buffer hencode hbound
    obtain ⟨encoded, hall, rfl⟩ := (encode_eq_ok_iff response buffer).mp hencode
    obtain ⟨chunks, hchunks, rfl⟩ := (Package.encodeAll_eq_ok_iff _ _).mp hall
    obtain ⟨hsplit, hpackages⟩ := Package.split_of_encodings hchunks
    obtain ⟨words, hwords⟩ := Package.length_flatten_chunks hsplit.wellFormed
    have hfits : words + 3 < 2 ^ 32 := by
      rw [← Package.length_of_encodings hchunks, hwords] at hbound
      omega
    obtain ⟨hframe, hslice⟩ := read_frameRegion response hwords hfits
    refine ⟨_, chunks, ?_, hslice, hchunks⟩
    have hinside : response.value.length + 8 + chunks.flatten.length
        ≤ (response.frameRegion chunks.flatten).length := by
      rw [frameRegion_of_words response hwords]
      simp only [List.length_append, Bytes.length_ofU16, Bytes.length_ofU32, List.length_cons,
        List.length_nil]
      omega
    have hgroups : Groups.read (response.frameRegion chunks.flatten)
        ⟨response.value.length + 8, response.value.length + 8 + chunks.flatten.length⟩
        = .ok (response.packages.foldl Groups.insert .empty) := by
      rw [Package.groups_read_of_inside (Nat.le_add_right _ _) hinside, hslice,
        Package.readAll_of_split _ hsplit (by simp), hpackages,
        ← Groups.ofList_eq_foldl_insert]
      rfl
    simp only [Contents.read, hframe, Except.mapError, hgroups, bind, Except.bind, pure,
      Except.pure]

/-- A response whose value is not a whole number of words and whose primary code is kept as a
number although it has a name. -/
def sampleResponse : Response where
  value := [1, 2, 3]
  status := ⟨.other 1, .commandNotSupported⟩
  packages := [
    { logId := 7, sequenceId := 1, commandClass := 0xA8, command := 1, severity := .recovered,
      chipId := 0, returnCode := 2, data := [9, 9, 9, 9] },
    { logId := 8, sequenceId := 2, commandClass := 0xA8, command := 1, severity := .undefined,
      chipId := 3, returnCode := 0x2000001, data := [] }]

theorem read_encode_two_packages :
    ∃ buffer region,
      sampleResponse.encode = .ok buffer ∧
      (sampleResponse.packages.map fun package => 16 + package.data.length).sum ≤ 2 ^ 34 - 16 ∧
      Contents.read buffer = .ok {
        frame := {
          value := [1, 2, 3]
          status := ⟨.invalidCommand, .commandNotSupported⟩
          headerOffset := 3
          region := some region }
        groups := sampleResponse.packages.foldl Groups.insert .empty } := by
  obtain ⟨region, chunks, hread, -, -⟩ := (read_encode sampleResponse).2.2 _ rfl (by decide)
  exact ⟨_, region, rfl, by decide, hread⟩

end Response

end FirstFailure
