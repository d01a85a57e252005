import FirstFailure.Proofs.Disk.Paths
/-!
# What operations change

Writing and removing files changes one place and no directory. Making directories changes nothing
but empty places, and nothing at all when the directory is there.
-/

namespace FirstFailure.Disk

variable {disk after : Disk} {path : String} {place other : Place} {item : Item} {content : Bytes}

/-! ## One place -/

theorem isAnchor_of_item?_ne (h : disk.item? place ≠ some .directory) : isAnchor place = false := by
  cases hanchor : isAnchor place with
  | false => rfl
  | true => exact absurd (if_pos hanchor) h

theorem find?_filter_self (items : List (Place × Item)) (place : Place) :
    (items.filter (·.1 ≠ place)).find? (·.1 = place) = none := by
  rw [List.find?_eq_none]
  intro kept hmem
  simpa using (List.mem_filter.mp hmem).2

theorem find?_filter_of_ne (items : List (Place × Item)) (h : other ≠ place) :
    (items.filter (·.1 ≠ place)).find? (·.1 = other) = items.find? (·.1 = other) := by
  rw [List.find?_filter]
  congr 1
  funext kept
  by_cases hkept : kept.1 = other
  · simp [hkept, h]
  · simp [hkept]

theorem item?_set_self (h : isAnchor place = false) (item : Item) :
    (disk.set place item).item? place = some item := by
  rw [item?, if_neg (by simp [h]), set, List.find?_append, find?_filter_self]
  simp

theorem item?_set_of_ne (h : other ≠ place) (item : Item) :
    (disk.set place item).item? other = disk.item? other := by
  unfold item?
  rw [set, List.find?_append, find?_filter_of_ne _ h]
  simp [Ne.symm h]

theorem item?_remove_self (h : isAnchor place = false) :
    (disk.remove place).item? place = none := by
  rw [item?, if_neg (by simp [h]), remove, find?_filter_self]
  rfl

theorem item?_remove_of_ne (h : other ≠ place) :
    (disk.remove place).item? other = disk.item? other := by
  unfold item?
  rw [remove, find?_filter_of_ne _ h]

/-! ## Files and directories -/

/-- Two disks with the same directories. -/
def SameDirectories (disk other : Disk) : Prop :=
  disk.DirectoriesIn other ∧ other.DirectoriesIn disk

theorem SameDirectories.refl (disk : Disk) : disk.SameDirectories disk := ⟨.refl disk, .refl disk⟩

theorem SameDirectories.trans {first second third : Disk} (h : first.SameDirectories second)
    (h' : second.SameDirectories third) : first.SameDirectories third :=
  ⟨h.1.trans h'.1, h'.2.trans h.2⟩

theorem SameDirectories.follow_iff {other : Disk} (h : disk.SameDirectories other) :
    disk.follow path = .ok place ↔ other.follow path = .ok place :=
  ⟨h.1.follow, h.2.follow⟩

/-- A change of one place that neither makes nor unmakes a directory. -/
theorem sameDirectories_of_one (hbefore : disk.item? place ≠ some .directory)
    (hafter : after.item? place ≠ some .directory)
    (h : ∀ other, other ≠ place → after.item? other = disk.item? other) :
    disk.SameDirectories after := by
  constructor
  · intro other hother
    have hne : other ≠ place := fun heq => hbefore (heq ▸ hother)
    rw [h other hne, hother]
  · intro other hother
    have hne : other ≠ place := fun heq => hafter (heq ▸ hother)
    rw [← h other hne, hother]

theorem sameDirectories_set (h : disk.item? place ≠ some .directory) (content : Bytes) :
    disk.SameDirectories (disk.set place (.file content)) := by
  refine sameDirectories_of_one h ?_ fun other hne => item?_set_of_ne hne _
  rw [item?_set_self (isAnchor_of_item?_ne h)]
  simp

theorem sameDirectories_remove (h : disk.item? place ≠ some .directory) :
    disk.SameDirectories (disk.remove place) := by
  refine sameDirectories_of_one h ?_ fun other hne => item?_remove_of_ne hne
  rw [item?_remove_self (isAnchor_of_item?_ne h)]
  simp

theorem writeAt_eq_ok (h : disk.writeAt place content = .ok after) :
    disk.item? place ≠ some .directory ∧ disk.item? place.dropLast = some .directory ∧
      after = disk.set place (.file content) := by
  unfold writeAt at h
  split at h
  next => cases h
  next hitem =>
    refine ⟨hitem, ?_⟩
    split at h
    next => cases h
    next => cases h
    next habove =>
      cases h
      exact ⟨habove, rfl⟩

theorem writeFile_eq_ok (h : disk.writeFile path content = .ok after) :
    ∃ place, disk.follow path = .ok place ∧ disk.item? place ≠ some .directory ∧
      after = disk.set place (.file content) := by
  unfold writeFile at h
  obtain ⟨place, hplace, h⟩ := Outcome.bind_eq_ok_iff.mp h
  split at h
  next => cases h
  next hends =>
    rw [withoutFinalSlashes_of_not_endsWithSlash (by simpa using hends)] at hplace
    obtain ⟨hitem, -, hafter⟩ := writeAt_eq_ok h
    exact ⟨place, hplace, hitem, hafter⟩

/-- What was written is read. -/
theorem readFile_of_writeFile (h : disk.writeFile path content = .ok after) :
    after.readFile path = .ok content := by
  obtain ⟨place, hplace, hitem, rfl⟩ := writeFile_eq_ok h
  exact readFile_eq_ok_iff.mpr
    ⟨place, (sameDirectories_set hitem content).1.follow hplace,
      item?_set_self (isAnchor_of_item?_ne hitem) _⟩

/-! ## Making directories -/

/-- A disk on which some empty places have become directories. -/
def Extends (disk after : Disk) : Prop :=
  ∀ place, after.item? place = disk.item? place ∨
    (disk.item? place = none ∧ after.item? place = some .directory)

theorem Extends.refl (disk : Disk) : disk.Extends disk := fun _ => .inl rfl

theorem Extends.trans {first second third : Disk} (h : first.Extends second)
    (h' : second.Extends third) : first.Extends third := by
  intro place
  rcases h' place with h' | ⟨hnone, hdirectory⟩
  · rcases h place with h | ⟨hnone, hdirectory⟩
    · exact .inl (h'.trans h)
    · exact .inr ⟨hnone, h'.trans hdirectory⟩
  · rcases h place with h | ⟨-, hmade⟩
    · exact .inr ⟨h.symm.trans hnone, hdirectory⟩
    · rw [hmade] at hnone
      cases hnone

theorem Extends.directoriesIn (h : disk.Extends after) : disk.DirectoriesIn after := by
  intro place hplace
  rcases h place with h | ⟨hnone, -⟩
  · rw [h, hplace]
  · rw [hnone] at hplace
    cases hplace

theorem makeDirectory_extends (h : disk.makeDirectory path = .ok after) : disk.Extends after := by
  unfold makeDirectory at h
  obtain ⟨made, -, h⟩ := Outcome.bind_eq_ok_iff.mp h
  split at h
  next hnone =>
    cases h
    intro place
    have hitem : disk.item? made ≠ some .directory := by simp [hnone]
    by_cases hplace : place = made
    · subst hplace
      exact .inr ⟨hnone, item?_set_self (isAnchor_of_item?_ne hitem) _⟩
    · exact .inl (item?_set_of_ne hplace _)
  next => cases h

theorem makeAll_extends (paths : List String) (disk : Disk) :
    disk.Extends (disk.makeAll paths).2 := by
  induction paths generalizing disk with
  | nil => exact .refl disk
  | cons path above ih =>
    unfold makeAll
    split
    next hmake => exact makeDirectory_extends hmake
    next =>
      have habove := ih disk
      split
      next habove' => rwa [habove'] at habove
      next habove' =>
        rw [habove'] at habove
        split
        next hmake => exact habove.trans (makeDirectory_extends hmake)
        next => split <;> exact habove
    next => split <;> exact .refl disk

theorem makeDirectories_extends (disk : Disk) (path : String) :
    disk.Extends (disk.makeDirectories path).2 :=
  makeAll_extends (pathsTo path) disk

theorem leadsToDirectory_iff :
    disk.leadsToDirectory path = true ↔
      ∃ place, disk.follow path = .ok place ∧ disk.item? place = some .directory := by
  unfold leadsToDirectory isDirectory
  cases disk.follow path with
  | error error => simp
  | ok place => simp

/-- The place of a path, without slashes at its end, is a directory. -/
def HasDirectory (disk : Disk) (path : String) : Prop :=
  ∃ place, disk.follow (withoutFinalSlashes path) = .ok place ∧
    disk.item? place = some .directory

theorem HasDirectory.mono {other : Disk} (h : disk.HasDirectory path)
    (hdirectories : disk.DirectoriesIn other) : other.HasDirectory path := by
  obtain ⟨place, hplace, hitem⟩ := h
  exact ⟨place, hdirectories.follow hplace, hdirectories place hitem⟩

theorem hasDirectory_of_makeDirectory (h : disk.makeDirectory path = .ok after) :
    after.HasDirectory path := by
  have hextends := makeDirectory_extends h
  unfold makeDirectory at h
  obtain ⟨place, hplace, h⟩ := Outcome.bind_eq_ok_iff.mp h
  split at h
  next hnone =>
    cases h
    have hitem : disk.item? place ≠ some .directory := by simp [hnone]
    exact ⟨place, hextends.directoriesIn.follow hplace,
      item?_set_self (isAnchor_of_item?_ne hitem) _⟩
  next => cases h

theorem hasDirectory_of_leadsToDirectory (h : disk.leadsToDirectory path = true) :
    disk.HasDirectory path := by
  obtain ⟨place, hplace, hitem⟩ := leadsToDirectory_iff.mp h
  exact ⟨place, follow_withoutFinalSlashes hplace, hitem⟩

/-- The directory is there once it was made, if only by someone else. -/
theorem hasDirectory_of_makeDirectories (h : disk.makeDirectories path = (.ok (), after)) :
    after.HasDirectory path := by
  unfold makeDirectories pathsTo makeAll at h
  split at h
  next hmake =>
    cases h
    exact hasDirectory_of_makeDirectory hmake
  next =>
    split at h
    next => cases h
    next =>
      split at h
      next hmake =>
        cases h
        exact hasDirectory_of_makeDirectory hmake
      next =>
        split at h
        next hleads =>
          cases h
          exact hasDirectory_of_leadsToDirectory hleads
        next => cases h
  next =>
    split at h
    next hleads =>
      cases h
      exact hasDirectory_of_leadsToDirectory hleads
    next => cases h

/-- A directory that is there is not made again. -/
theorem makeDirectories_of_hasDirectory (h : disk.HasDirectory path) :
    (disk.makeDirectories path).2 = disk := by
  obtain ⟨place, hplace, hitem⟩ := h
  have hmake : disk.makeDirectory path = .error .alreadyExists := by
    unfold makeDirectory
    rw [hplace]
    simp only [bind, Except.bind, hitem]
  unfold makeDirectories pathsTo
  simp only [makeAll, hmake]
  split <;> rfl

end FirstFailure.Disk
