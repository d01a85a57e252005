import FirstFailure.Proofs.Outcome
import FirstFailure.Proofs.Package.Chunks
import FirstFailure.Response.Contents
/-!
# The packages a response carries

`packagesIn` are the packages of a response in the order of the buffer, before they are grouped. A
response whose contents can be read has its packages in a row of chunks, and its groups are those of
`packagesIn`, whatever the value, the status and the bytes behind the last chunk.
-/

namespace FirstFailure

/-- The bytes of the region of a response, none if there is no region. -/
def packageRegion (buffer : Bytes) : Bytes :=
  match Frame.read buffer true with
  | .ok frame => (frame.region.map (·.slice buffer)).getD []
  | .error _ => []

/-- The packages in the region of a response, in the order of the buffer. -/
def packagesIn (buffer : Bytes) : List Package :=
  ((Package.readAll 0 (packageRegion buffer)).toOption).getD []

/-- The chunks in the region of a response, and the few bytes behind them. -/
structure Carries (buffer : Bytes) (chunks : List Bytes) (tail : Bytes) : Prop where
  split : Package.Split (packageRegion buffer) chunks tail
  short : tail.length < 16

theorem Carries.packagesIn_eq {buffer tail : Bytes} {chunks : List Bytes}
    (h : Carries buffer chunks tail) : packagesIn buffer = chunks.map Package.ofChunk := by
  rw [packagesIn, Package.readAll_of_split 0 h.split h.short]
  rfl

/-- Reading the groups of a region reads its packages. -/
theorem Groups.readAll_of_read {buffer : Bytes} {region : Region} {groups : Groups}
    (h : Groups.read buffer region = .ok groups) :
    ∃ packages, Package.readAll region.start (region.slice buffer) = .ok packages ∧
      groups = Groups.ofList packages := by
  rw [Groups.read] at h
  split at h
  next => cases h
  next =>
    obtain ⟨packages, hread, rfl⟩ := Outcome.map_eq_ok_iff.mp h
    exact ⟨packages, hread, rfl⟩

/-- Once the framing is read, only the region can make an error. -/
theorem Contents.read_of_frame {buffer : Bytes} {frame : Frame}
    (h : Frame.read buffer true = .ok frame) :
    Contents.read buffer
      = match frame.region with
        | none => .ok ⟨frame, .empty⟩
        | some region => ((Groups.read buffer region).mapError .region).map (.mk frame) := by
  rw [read, h]
  show (match frame.region with | none => _ | some region => _) = _
  cases frame.region with
  | none => rfl
  | some region => exact bind_pure_comp _ _

/-- What has been read is the frame, and the groups of the packages in the region. -/
theorem Contents.of_read {buffer : Bytes} {contents : Contents}
    (h : Contents.read buffer = .ok contents) :
    Frame.read buffer true = .ok contents.frame ∧
      contents.groups = Groups.ofList (packagesIn buffer) ∧
      ∃ chunks tail, Carries buffer chunks tail := by
  obtain ⟨frame, hread, h⟩ := Outcome.bind_eq_ok_iff.mp h
  have hframe := Outcome.mapError_eq_ok_iff.mp hread
  cases hregion : frame.region with
  | none =>
    have hbytes : packageRegion buffer = [] := by simp [packageRegion, hframe, hregion]
    have hcarries : Carries buffer [] [] := ⟨⟨hbytes, by simp⟩, by decide⟩
    rw [hregion] at h
    cases h
    rw [hcarries.packagesIn_eq]
    exact ⟨hframe, rfl, _, _, hcarries⟩
  | some region =>
    have hbytes : packageRegion buffer = region.slice buffer := by
      simp [packageRegion, hframe, hregion]
    rw [hregion] at h
    obtain ⟨groups, hread, h⟩ := Outcome.bind_eq_ok_iff.mp h
    cases h
    obtain ⟨packages, hpackages, rfl⟩ :=
      Groups.readAll_of_read (Outcome.mapError_eq_ok_iff.mp hread)
    obtain ⟨chunks, tail, hsplit, hshort, rfl⟩ := Package.readAll_eq_ok_iff.mp hpackages
    have hcarries : Carries buffer chunks tail := ⟨hbytes ▸ hsplit, hshort⟩
    rw [hcarries.packagesIn_eq]
    exact ⟨hframe, rfl, chunks, tail, hcarries⟩

end FirstFailure
