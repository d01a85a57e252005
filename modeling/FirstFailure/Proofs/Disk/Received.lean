import FirstFailure.Proofs.Disk.Changes
import Mathlib.Data.List.Nodup
/-!
# Files of different names

A disk that has received files of different names holds each of them and is otherwise as it was.
Which files it has received decides what is where, and not the order in which they were written. An
empty directory that receives files lists these and nothing else.
-/

namespace FirstFailure.Disk

/-- A file for a directory, under a name of its own. -/
structure NamedFile where
  folder : String
  name : String
  content : Bytes
  isFileName : IsFileName name

/-- The path of a file. -/
def NamedFile.path (file : NamedFile) : String := join file.folder file.name

/-- A disk that has received files: each of them is there, nothing else is different, and there are
the same directories. -/
structure Received (disk : Disk) (files : List NamedFile) (after : Disk) : Prop where
  content : ∀ file ∈ files, ∃ place, disk.follow file.path = .ok place ∧
    after.item? place = some (.file file.content)
  others : ∀ place, (∀ file ∈ files, disk.follow file.path ≠ .ok place) →
    after.item? place = disk.item? place
  directories : disk.SameDirectories after

/-- A directory with files in it, and with nothing else. -/
structure Lists (disk : Disk) (directory : Place) (files : List (String × Bytes)) : Prop where
  isDirectory : disk.item? directory = some .directory
  names : (files.map (·.1)).Nodup
  isFileName : ∀ file ∈ files, IsFileName file.1
  item_iff : ∀ name, IsFileName name → ∀ item,
    disk.item? (directory ++ [name]) = some item ↔ ∃ content, item = .file content ∧
      (name, content) ∈ files

theorem Lists.subset {disk : Disk} {directory : Place} {files others : List (String × Bytes)}
    (h : disk.Lists directory files) (h' : disk.Lists directory others) : files ⊆ others := by
  intro file hfile
  have hname := h.isFileName file hfile
  have hitem := (h.item_iff file.1 hname (.file file.2)).mpr ⟨file.2, rfl, hfile⟩
  obtain ⟨content, heq, hmem⟩ := (h'.item_iff file.1 hname _).mp hitem
  cases heq
  exact hmem

/-- What a directory lists is determined but for the order. -/
theorem Lists.perm {disk : Disk} {directory : Place} {files others : List (String × Bytes)}
    (h : disk.Lists directory files) (h' : disk.Lists directory others) : files.Perm others := by
  rw [List.perm_ext_iff_of_nodup (List.Nodup.of_map _ h.names) (List.Nodup.of_map _ h'.names)]
  exact fun _ => ⟨fun hfile => h.subset h' hfile, fun hfile => h'.subset h hfile⟩

namespace Received

variable {disk after : Disk} {files others : List NamedFile}

theorem none (disk : Disk) : disk.Received [] disk := ⟨by simp, fun _ _ => rfl, .refl disk⟩

theorem readFile (h : disk.Received files after) {file : NamedFile} (hfile : file ∈ files) :
    after.readFile file.path = .ok file.content := by
  obtain ⟨place, hplace, hitem⟩ := h.content file hfile
  exact readFile_eq_ok_iff.mpr ⟨place, h.directories.follow_iff.mp hplace, hitem⟩

/-- What a disk has received decides what is where. -/
theorem item?_eq {last : Disk} (h : disk.Received files after) (h' : disk.Received others last)
    (hsame : ∀ file, file ∈ files ↔ file ∈ others) (place : Place) :
    after.item? place = last.item? place := by
  by_cases hplace : ∃ file ∈ files, disk.follow file.path = .ok place
  · obtain ⟨file, hfile, hfollow⟩ := hplace
    obtain ⟨found, hfound, hitem⟩ := h.content file hfile
    obtain ⟨found', hfound', hitem'⟩ := h'.content file ((hsame file).mp hfile)
    cases hfound.symm.trans hfollow
    cases hfound'.symm.trans hfollow
    exact hitem.trans hitem'.symm
  · have hfree : ∀ file ∈ files, disk.follow file.path ≠ .ok place :=
      fun file hfile hfollow => hplace ⟨file, hfile, hfollow⟩
    rw [h.others place hfree, h'.others place fun file hfile => hfree file ((hsame file).mpr hfile)]

theorem lists {directory : Place} (h : disk.Received files after)
    (hempty : disk.Lists directory []) (hnames : (files.map (·.name)).Nodup)
    (hplaces : ∀ file ∈ files, disk.follow file.path = .ok (directory ++ [file.name])) :
    after.Lists directory (files.map fun file => (file.name, file.content)) := by
  constructor
  case isDirectory => exact h.directories.1 _ hempty.isDirectory
  case names =>
    rw [List.map_map]
    exact hnames
  case isFileName =>
    intro listed hlisted
    obtain ⟨file, -, rfl⟩ := List.mem_map.mp hlisted
    exact file.isFileName
  case item_iff =>
    have hfilled : ∀ file ∈ files, after.item? (directory ++ [file.name])
        = some (.file file.content) := by
      intro file hfile
      obtain ⟨place, hplace, hitem⟩ := h.content file hfile
      cases hplace.symm.trans (hplaces file hfile)
      exact hitem
    intro name hname item
    constructor
    · intro hitem
      by_cases hreceived : ∃ file ∈ files, file.name = name
      · obtain ⟨file, hfile, rfl⟩ := hreceived
        rw [hfilled file hfile] at hitem
        cases hitem
        exact ⟨file.content, rfl, List.mem_map.mpr ⟨file, hfile, rfl⟩⟩
      · -- Nothing was received under this name, and nothing was there before.
        rw [h.others _ fun file hfile hfollow => ?_] at hitem
        · obtain ⟨_, -, hmem⟩ := (hempty.item_iff name hname item).mp hitem
          cases hmem
        · rw [hplaces file hfile] at hfollow
          have hlast := (List.append_inj' (Except.ok.inj hfollow) rfl).2
          exact hreceived ⟨file, hfile, List.singleton_inj.mp hlast⟩
    · rintro ⟨content, rfl, hmem⟩
      obtain ⟨file, hfile, heq⟩ := List.mem_map.mp hmem
      cases heq
      exact hfilled file hfile

end Received

end FirstFailure.Disk
