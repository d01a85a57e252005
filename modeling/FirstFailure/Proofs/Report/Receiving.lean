import FirstFailure.Proofs.Report.AttachmentFiles
import Mathlib.Data.Multiset.Bind
/-!
# Disks that are receiving files

Between the first operation and the last one a disk has received some of the files, and contents of
others wait in scratch files. This is an invariant of creating a scratch file, of forgetting one and
of receiving a file. When no scratch file is left, the disk has received the files.
-/

namespace FirstFailure.AttachmentFile

open Disk

/-- A disk that has received files, with contents in scratch files. -/
structure Receiving (base : Disk) (scratch : Multiset (Place × Bytes))
    (files : Multiset NamedFile) (disk : Disk) : Prop where
  places : (scratch.map (·.1)).Nodup
  isScratch : ∀ kept ∈ scratch, IsScratchPlace kept.1
  empty : ∀ kept ∈ scratch, base.item? kept.1 = none
  filled : ∀ kept ∈ scratch, disk.item? kept.1 = some (.file kept.2)
  names : ∀ file ∈ files, ¬IsScratchName file.name
  content : ∀ file ∈ files, ∃ place, base.follow file.path = .ok place ∧
    disk.item? place = some (.file file.content)
  others : ∀ place, (∀ kept ∈ scratch, kept.1 ≠ place) →
    (∀ file ∈ files, base.follow file.path ≠ .ok place) → disk.item? place = base.item? place
  directories : base.SameDirectories disk

namespace Receiving

variable {base disk : Disk} {scratch : Multiset (Place × Bytes)} {files : Multiset NamedFile}
  {place : Place} {content : Bytes}

theorem none (base : Disk) : Receiving base 0 0 base :=
  ⟨Multiset.nodup_zero, by simp, by simp, by simp, by simp, by simp, fun _ _ _ => rfl, .refl base⟩

/-- A scratch file where nothing was. -/
theorem create (h : Receiving base scratch files disk) (hscratch : IsScratchPlace place)
    (hnone : disk.item? place = .none) (content : Bytes) :
    Receiving base ((place, content) ::ₘ scratch) files (disk.set place (.file content)) := by
  have hnew : ∀ kept ∈ scratch, kept.1 ≠ place := by
    rintro kept hkept rfl
    rw [h.filled kept hkept] at hnone
    cases hnone
  have hfree : ∀ file ∈ files, base.follow file.path ≠ .ok place := by
    intro file hfile hfollow
    obtain ⟨found, hfound, hitem⟩ := h.content file hfile
    cases hfound.symm.trans hfollow
    rw [hitem] at hnone
    cases hnone
  constructor
  case places =>
    rw [Multiset.map_cons, Multiset.nodup_cons]
    refine ⟨fun hmem => ?_, h.places⟩
    obtain ⟨kept, hkept, heq⟩ := Multiset.mem_map.mp hmem
    exact hnew kept hkept heq
  case isScratch => exact Multiset.forall_mem_cons.mpr ⟨hscratch, h.isScratch⟩
  case empty =>
    refine Multiset.forall_mem_cons.mpr ⟨?_, h.empty⟩
    rw [← h.others place hnew hfree, hnone]
  case filled =>
    refine Multiset.forall_mem_cons.mpr ⟨item?_set_self hscratch.isAnchor _, ?_⟩
    intro kept hkept
    rw [item?_set_of_ne (hnew kept hkept), h.filled kept hkept]
  case names => exact h.names
  case content =>
    intro file hfile
    obtain ⟨found, hfound, hitem⟩ := h.content file hfile
    refine ⟨found, hfound, ?_⟩
    rw [item?_set_of_ne ?_, hitem]
    rintro rfl
    exact hfree file hfile hfound
  case others =>
    intro other hother hfiles
    obtain ⟨hne, hother⟩ := Multiset.forall_mem_cons.mp hother
    rw [item?_set_of_ne hne.symm, h.others other hother hfiles]
  case directories => exact h.directories.trans (sameDirectories_set (by simp [hnone]) content)

/-- A scratch file that is no longer there. -/
theorem forget (h : Receiving base ((place, content) ::ₘ scratch) files disk) :
    Receiving base scratch files (disk.remove place) := by
  have hscratch : IsScratchPlace place := h.isScratch _ (Multiset.mem_cons_self _ _)
  have hplaces := h.places
  rw [Multiset.map_cons, Multiset.nodup_cons] at hplaces
  have hothers : ∀ kept ∈ scratch, kept.1 ≠ place := fun kept hkept heq =>
    hplaces.1 (Multiset.mem_map.mpr ⟨kept, hkept, heq⟩)
  have hfilled := h.filled _ (Multiset.mem_cons_self _ _)
  constructor
  case places => exact hplaces.2
  case isScratch => exact fun kept hkept => h.isScratch kept (Multiset.mem_cons_of_mem hkept)
  case empty => exact fun kept hkept => h.empty kept (Multiset.mem_cons_of_mem hkept)
  case filled =>
    intro kept hkept
    rw [item?_remove_of_ne (hothers kept hkept), h.filled kept (Multiset.mem_cons_of_mem hkept)]
  case names => exact h.names
  case content =>
    intro file hfile
    obtain ⟨found, hfound, hitem⟩ := h.content file hfile
    refine ⟨found, hfound, ?_⟩
    rw [item?_remove_of_ne, hitem]
    exact (hscratch.ne_of_follow file.isFileName (h.names file hfile) hfound).symm
  case others =>
    intro other hother hfiles
    by_cases heq : other = place
    · rw [heq, item?_remove_self hscratch.isAnchor]
      exact (h.empty _ (Multiset.mem_cons_self _ _)).symm
    · rw [item?_remove_of_ne heq]
      refine h.others other (Multiset.forall_mem_cons.mpr ⟨?_, hother⟩) hfiles
      exact fun hplace => heq hplace.symm
  case directories => exact h.directories.trans (sameDirectories_remove (by simp [hfilled]))

/-- A file of a name that was not there. -/
theorem receive {file : NamedFile} (h : Receiving base scratch files disk)
    (hfollow : base.follow file.path = .ok place) (hitem : disk.item? place ≠ some .directory)
    (hname : ¬IsScratchName file.name) (hnew : ∀ other ∈ files, other.name ≠ file.name) :
    Receiving base scratch (file ::ₘ files) (disk.set place (.file file.content)) := by
  have hscratch : ∀ kept ∈ scratch, kept.1 ≠ place := fun kept hkept =>
    (h.isScratch kept hkept).ne_of_follow file.isFileName hname hfollow
  constructor
  case places => exact h.places
  case isScratch => exact h.isScratch
  case empty => exact h.empty
  case filled =>
    intro kept hkept
    rw [item?_set_of_ne (hscratch kept hkept), h.filled kept hkept]
  case names => exact Multiset.forall_mem_cons.mpr ⟨hname, h.names⟩
  case content =>
    refine Multiset.forall_mem_cons.mpr
      ⟨⟨place, hfollow, item?_set_self (isAnchor_of_item?_ne hitem) _⟩, ?_⟩
    intro other hother
    obtain ⟨found, hfound, hcontent⟩ := h.content other hother
    refine ⟨found, hfound, ?_⟩
    rw [item?_set_of_ne, hcontent]
    exact place_ne_of_name_ne other.isFileName file.isFileName (hnew other hother) hfound hfollow
  case others =>
    intro other hother hfiles
    obtain ⟨hne, hfiles⟩ := Multiset.forall_mem_cons.mp hfiles
    rw [item?_set_of_ne, h.others other hother hfiles]
    rintro rfl
    exact hne hfollow
  case directories => exact h.directories.trans (sameDirectories_set hitem _)

/-- Without scratch files the disk has received the files. -/
theorem received {list : List NamedFile} (h : Receiving base 0 (list : Multiset NamedFile) disk) :
    base.Received list disk :=
  ⟨h.content, fun place hplace => h.others place (by simp) hplace, h.directories⟩

end Receiving

end FirstFailure.AttachmentFile
