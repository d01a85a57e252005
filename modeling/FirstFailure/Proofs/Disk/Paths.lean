import FirstFailure.Disk
import FirstFailure.Proofs.Outcome
import Mathlib.Data.List.Induction
import Mathlib.Data.List.TakeWhile
/-!
# Where paths lead

A path is followed through directories only. So a path that leads somewhere leads to the same place
on every disk that has at least the same directories, and a name behind a path leads to a place of
that name.
-/

namespace FirstFailure.Disk

variable {disk : Disk} {path name : String} {place : Place}

/-! ## Names in paths -/

theorem segments_ne_nil (text : List Char) : segments text ≠ [] := by
  cases text with
  | nil => simp [segments]
  | cons c rest =>
    unfold segments
    split
    · simp
    · split <;> simp

theorem segments_of_not_mem {text : List Char} (h : '/' ∉ text) : segments text = [text] := by
  induction text with
  | nil => rfl
  | cons c rest ih =>
    have hc : c ≠ '/' := fun heq => h (by simp [heq])
    have hrest := ih fun hmem => h (by simp [hmem])
    simp [segments, hc, hrest]

theorem segments_append_slash (text rest : List Char) :
    segments (text ++ '/' :: rest) = segments text ++ segments rest := by
  induction text with
  | nil => simp [segments]
  | cons c text ih =>
    by_cases hc : c = '/'
    · simp [segments, hc, ih]
    · simp only [List.cons_append, segments, if_neg hc, ih]
      cases htext : segments text with
      | nil => exact absurd htext (segments_ne_nil text)
      | cons first others => rfl

/-- Slashes at the end of a text are followed by nothing. -/
theorem segments_append_slashes (text : List Char) {slashes : List Char}
    (h : ∀ c ∈ slashes, c = '/') :
    segments (text ++ slashes) = segments text ++ slashes.map fun _ => [] := by
  induction slashes generalizing text with
  | nil => simp
  | cons c rest ih =>
    have hc := h c (by simp)
    have hrest := ih [] fun d hd => h d (by simp [hd])
    rw [hc, segments_append_slash, ← List.nil_append rest, hrest]
    simp [segments]

theorem not_mem_of_mem_segments {text part : List Char} (h : part ∈ segments text) :
    '/' ∉ part := by
  induction text generalizing part with
  | nil =>
    cases List.mem_singleton.mp h
    simp
  | cons c rest ih =>
    unfold segments at h
    split at h
    next =>
      rcases List.mem_cons.mp h with rfl | h
      · simp
      · exact ih h
    next hc =>
      cases hrest : segments rest with
      | nil => exact absurd hrest (segments_ne_nil rest)
      | cons first others =>
        rw [hrest] at h ih
        rcases List.mem_cons.mp h with rfl | h
        · have hfirst := ih (List.mem_cons_self ..)
          simpa [Ne.symm hc] using hfirst
        · exact ih (by simp [h])

theorem not_mem_of_mem_pathNames (h : name ∈ pathNames path) : '/' ∉ name.toList := by
  obtain ⟨part, hpart, rfl⟩ := List.mem_map.mp h
  rw [String.toList_ofList]
  exact not_mem_of_mem_segments hpart

/-- Behind a slash a name stands on its own. -/
theorem pathNames_append_slash (hpath : path ≠ "") (hname : '/' ∉ name.toList) :
    pathNames (path ++ "/" ++ name) = pathNames path ++ [name] := by
  have hlast : segments name.toList = [name.toList] := segments_of_not_mem hname
  cases hchars : path.toList with
  | nil => exact absurd (String.toList_eq_nil_iff.mp hchars) hpath
  | cons c rest =>
    by_cases hc : c = '/'
    · simp [pathNames, isAbsolute, String.toList_append, hchars, hc, segments_append_slash, hlast]
    · have hsegments := segments_append_slash (c :: rest) name.toList
      rw [List.cons_append] at hsegments
      simp [pathNames, isAbsolute, String.toList_append, hchars, hc, hsegments, hlast]

theorem isAbsolute_of_no_slash (h : '/' ∉ name.toList) : isAbsolute name = false := by
  unfold isAbsolute
  cases hchars : name.toList with
  | nil => rfl
  | cons c rest =>
    rw [hchars, List.mem_cons, not_or] at h
    simp [Ne.symm h.1]

theorem isAbsolute_append (hpath : path ≠ "") (rest : String) :
    isAbsolute (path ++ rest) = isAbsolute path := by
  cases hchars : path.toList with
  | nil => exact absurd (String.toList_eq_nil_iff.mp hchars) hpath
  | cons c others => simp [isAbsolute, String.toList_append, hchars]

theorem endsWithSlash_append (h : endsWithSlash name = true) (path : String) :
    endsWithSlash (path ++ name) = true := by
  have hlast : name.toList.getLast? = some '/' := of_decide_eq_true h
  simp [endsWithSlash, String.toList_append, List.getLast?_append, hlast]

theorem join_of_not_isAbsolute (h : isAbsolute name = false) (path : String) :
    join path name
      = (if path = "" ∨ endsWithSlash path then path else path ++ "/") ++ name := by
  unfold join
  rw [h, if_neg (by simp)]
  split <;> rfl

/-- A name behind a path comes after the names in the path. A slash at the end of the path has
nothing behind it. -/
theorem pathNames_join (h : '/' ∉ name.toList) (path : String) :
    ∃ names, pathNames (join path name) = names ++ [name] ∧
      (path ≠ "" → pathNames path = names ∨ pathNames path = names ++ [""]) := by
  have hrelative := isAbsolute_of_no_slash h
  have hlast : segments name.toList = [name.toList] := segments_of_not_mem h
  rw [join_of_not_isAbsolute hrelative]
  by_cases hpath : path = ""
  · exact ⟨[], by simp [hpath, pathNames, hrelative, hlast], fun hne => absurd hpath hne⟩
  · by_cases hends : endsWithSlash path
    · rw [if_pos (.inr hends)]
      obtain ⟨before, hbefore⟩ := List.getLast?_eq_some_iff.mp (of_decide_eq_true hends)
      have hfolder : path = String.ofList before ++ "/" := by
        rw [← String.toList_inj, hbefore, String.toList_append, String.toList_ofList]
        rfl
      cases before with
      | nil => exact ⟨[], by simp [hfolder, pathNames, isAbsolute, hlast], by
          simp [hfolder, pathNames, isAbsolute, segments]⟩
      | cons c rest =>
        have hne : String.ofList (c :: rest) ≠ "" := by simp
        refine ⟨pathNames (String.ofList (c :: rest)), ?_, fun _ => .inr ?_⟩
        · rw [hfolder, pathNames_append_slash hne h]
        · rw [hfolder, ← pathNames_append_slash hne (by simp), String.append_empty]
    · rw [if_neg (by simp [hpath, hends])]
      exact ⟨pathNames path, pathNames_append_slash hpath h, fun _ => .inl rfl⟩

theorem pathStart_join (h : '/' ∉ name.toList) (hpath : path ≠ "") :
    pathStart (join path name) = pathStart path := by
  unfold pathStart
  rw [join_of_not_isAbsolute (isAbsolute_of_no_slash h)]
  split
  · rw [isAbsolute_append hpath]
  · rw [String.append_assoc, isAbsolute_append hpath]

/-- A path may be divided behind a slash. -/
theorem join_append {folder : String} (hfolder : folder = "" ∨ endsWithSlash folder = true)
    (h : '/' ∉ name.toList) (path : String) :
    join path (folder ++ name) = join (join path folder) name := by
  have hrelative := isAbsolute_of_no_slash h
  rcases hfolder with rfl | hends
  · -- Only the slash between the two is put there, and it is put there once.
    have hempty : isAbsolute "" = false := by decide
    rw [String.empty_append, join_of_not_isAbsolute hrelative, join_of_not_isAbsolute hempty,
      String.append_empty, join_of_not_isAbsolute hrelative]
    by_cases hpath : path = "" ∨ endsWithSlash path = true
    · rw [if_pos hpath, if_pos hpath]
    · rw [if_neg hpath, if_pos (.inr (endsWithSlash_append (by decide) path))]
  · have hne : folder ≠ "" := by
      rintro rfl
      cases hends
    have hlast : ∀ before, join (before ++ folder) name = before ++ folder ++ name := by
      intro before
      rw [join_of_not_isAbsolute hrelative, if_pos (.inr (endsWithSlash_append hends before))]
    cases habsolute : isAbsolute folder with
    | true =>
      have hfolder : join path folder = folder := if_pos habsolute
      have hwhole : join path (folder ++ name) = folder ++ name :=
        if_pos ((isAbsolute_append hne name).trans habsolute)
      rw [hwhole, hfolder]
      simpa using (hlast "").symm
    | false =>
      rw [join_of_not_isAbsolute ((isAbsolute_append hne name).trans habsolute),
        join_of_not_isAbsolute habsolute, hlast, String.append_assoc]

/-- Every text is a name behind its last slash. -/
theorem exists_lastName (text : String) :
    ∃ folder name, text = folder ++ name ∧ (folder = "" ∨ endsWithSlash folder = true) ∧
      '/' ∉ name.toList := by
  by_cases h : '/' ∈ text.toList
  · obtain ⟨behind, before, htext, hbehind⟩ :=
      List.eq_append_cons_of_mem (List.mem_reverse.mpr h)
    refine ⟨String.ofList (before.reverse ++ ['/']), String.ofList behind.reverse, ?_, .inr ?_, ?_⟩
    · simp [← String.toList_inj, List.reverse_eq_iff.mp htext]
    · simp [endsWithSlash]
    · simpa using hbehind
  · exact ⟨"", text, by simp, .inl rfl, h⟩

/-! ## Following paths -/

theorem follow_eq_ok_iff :
    disk.follow path = .ok place ↔
      ('\x00' ∉ path.toList ∧ path ≠ "" ∧ path.utf8ByteSize ≤ maxPathLength) ∧
        (pathNames path).foldlM disk.step (pathStart path) = .ok place := by
  unfold follow
  by_cases hnul : '\x00' ∈ path.toList
  · simp [hnul]
  · by_cases hempty : path = ""
    · simp [hempty]
    · by_cases hlong : maxPathLength < path.utf8ByteSize
      · simp [hnul, hempty, Nat.not_le_of_gt hlong, hlong]
      · simp [hnul, hempty, hlong, Nat.le_of_not_lt hlong]

theorem step_eq_ok {next : Place} (h : disk.step place name = .ok next) :
    disk.item? place = some .directory := by
  unfold step at h
  split at h
  next => cases h
  next => cases h
  next hitem => exact hitem

/-- Steps without a name stay where they are. -/
theorem foldlM_step_of_empty {names : List String} (h : ∀ name ∈ names, name = "") {start : Place}
    (hwalk : names.foldlM disk.step start = .ok place) : place = start := by
  induction names generalizing start with
  | nil =>
    cases hwalk
    rfl
  | cons name rest ih =>
    rw [List.foldlM_cons] at hwalk
    obtain ⟨next, hstep, hrest⟩ := Outcome.bind_eq_ok_iff.mp hwalk
    have hname := h name (by simp)
    have hstart := step_eq_ok hstep
    simp only [step, hstart, hname, true_or, if_true] at hstep
    cases hstep
    exact ih (fun other hother => h other (by simp [hother])) hrest

/-- A step into a directory is the same on all disks. -/
theorem step_congr {other : Disk} (h : disk.item? place = some .directory)
    (hother : other.item? place = some .directory) (name : String) :
    disk.step place name = other.step place name := by
  simp only [step, h, hother]

/-- The directories of one disk are directories of another. -/
def DirectoriesIn (disk other : Disk) : Prop :=
  ∀ place, disk.item? place = some .directory → other.item? place = some .directory

theorem DirectoriesIn.refl (disk : Disk) : disk.DirectoriesIn disk := fun _ h => h

theorem DirectoriesIn.trans {first second third : Disk} (h : first.DirectoriesIn second)
    (h' : second.DirectoriesIn third) : first.DirectoriesIn third :=
  fun place hplace => h' place (h place hplace)

theorem DirectoriesIn.foldlM_step {other : Disk} (h : disk.DirectoriesIn other)
    {names : List String} {start : Place} (hwalk : names.foldlM disk.step start = .ok place) :
    names.foldlM other.step start = .ok place := by
  induction names generalizing start with
  | nil => exact hwalk
  | cons name rest ih =>
    rw [List.foldlM_cons] at hwalk ⊢
    obtain ⟨next, hstep, hrest⟩ := Outcome.bind_eq_ok_iff.mp hwalk
    have hstart := step_eq_ok hstep
    have hother := (step_congr hstart (h start hstart) name).symm.trans hstep
    exact Outcome.bind_eq_ok_iff.mpr ⟨next, hother, ih hrest⟩

theorem DirectoriesIn.follow {other : Disk} (h : disk.DirectoriesIn other)
    (hplace : disk.follow path = .ok place) : other.follow path = .ok place := by
  rw [follow_eq_ok_iff] at hplace ⊢
  exact ⟨hplace.1, h.foldlM_step hplace.2⟩

/-! ## Files behind a path -/

/-- A name that leads to a place of its own in the directory it is looked up in. -/
structure IsFileName (name : String) : Prop where
  ne_empty : name ≠ ""
  ne_here : name ≠ "."
  ne_up : name ≠ ".."
  no_slash : '/' ∉ name.toList

theorem IsFileName.of_suffix {stem suffix : String} (hstem : '/' ∉ stem.toList)
    (hsuffix : '/' ∉ suffix.toList) (hlength : 2 < suffix.length) :
    IsFileName (stem ++ suffix) := by
  have hlong : 2 < (stem ++ suffix).length := by
    rw [String.length_append]
    omega
  have hne : ∀ short : String, short.length ≤ 2 → stem ++ suffix ≠ short := by
    intro short hshort heq
    rw [heq] at hlong
    omega
  exact ⟨hne _ (by decide), hne _ (by decide), hne _ (by decide),
    by simp [String.toList_append, hstem, hsuffix]⟩

/-- Such a name is not the root's, nor a step up. -/
theorem IsFileName.isAnchor_append (h : IsFileName name) (directory : Place) :
    isAnchor (directory ++ [name]) = false := by
  have hroot : directory ++ [name] ≠ [rootName] := by
    intro heq
    have hlast := congrArg List.getLast? heq
    simp only [List.getLast?_concat, List.getLast?_singleton, Option.some.injEq] at hlast
    exact h.no_slash (by simp [hlast, rootName])
  simp [isAnchor, hroot, h.ne_up]

theorem IsFileName.step_eq_ok {next : Place} (hname : IsFileName name)
    (h : disk.step place name = .ok next) : next = place ++ [name] := by
  have hdirectory := Disk.step_eq_ok h
  simp only [step, hdirectory, hname.ne_empty, hname.ne_here, hname.ne_up, or_self,
    if_false] at h
  split at h
  next => cases h
  next =>
    cases h
    rfl

/-- A path with a name behind it leads where the names before the last one lead, and then on. -/
theorem walk_of_follow_join (hname : IsFileName name) {names : List String}
    (hnames : pathNames (join path name) = names ++ [name])
    (h : disk.follow (join path name) = .ok place) :
    ∃ directory, names.foldlM disk.step (pathStart (join path name)) = .ok directory ∧
      place = directory ++ [name] := by
  have hwalk := (follow_eq_ok_iff.mp h).2
  rw [hnames, List.foldlM_append] at hwalk
  obtain ⟨directory, hdirectory, hstep⟩ := Outcome.bind_eq_ok_iff.mp hwalk
  rw [List.foldlM_cons] at hstep
  obtain ⟨next, hnext, hlast⟩ := Outcome.bind_eq_ok_iff.mp hstep
  cases hlast
  exact ⟨directory, hdirectory, hname.step_eq_ok hnext⟩

theorem follow_join (hname : IsFileName name) (h : disk.follow (join path name) = .ok place) :
    ∃ directory, place = directory ++ [name] := by
  obtain ⟨names, hnames, -⟩ := pathNames_join hname.no_slash path
  obtain ⟨directory, -, hplace⟩ := walk_of_follow_join hname hnames h
  exact ⟨directory, hplace⟩

/-- Behind a path to a directory a name leads to its place in the directory. -/
theorem follow_join_of_follow {folder : Place} (hname : IsFileName name)
    (hfolder : disk.follow path = .ok folder) (h : disk.follow (join path name) = .ok place) :
    place = folder ++ [name] := by
  obtain ⟨⟨-, hpath, -⟩, hwalk⟩ := follow_eq_ok_iff.mp hfolder
  obtain ⟨names, hnames, hbefore⟩ := pathNames_join hname.no_slash path
  obtain ⟨directory, hdirectory, rfl⟩ := walk_of_follow_join hname hnames h
  rw [pathStart_join hname.no_slash hpath] at hdirectory
  have hsame : directory = folder := by
    rcases hbefore hpath with hpathNames | hpathNames
    · rw [hpathNames, hdirectory] at hwalk
      exact Except.ok.inj hwalk
    · rw [hpathNames, List.foldlM_append, hdirectory] at hwalk
      exact (foldlM_step_of_empty (by simp) hwalk).symm
  rw [hsame]

/-- Files of different names have different places, in whatever directories. -/
theorem place_ne_of_name_ne {other : Disk} {otherPath otherName : String} {otherPlace : Place}
    (hname : IsFileName name) (hotherName : IsFileName otherName) (hne : name ≠ otherName)
    (h : disk.follow (join path name) = .ok place)
    (hother : other.follow (join otherPath otherName) = .ok otherPlace) : place ≠ otherPlace := by
  obtain ⟨directory, rfl⟩ := follow_join hname h
  obtain ⟨otherDirectory, rfl⟩ := follow_join hotherName hother
  intro heq
  have hlast := (List.append_inj' heq rfl).2
  exact hne (List.singleton_inj.mp hlast)

theorem readFile_eq_ok_iff {content : Bytes} :
    disk.readFile path = .ok content ↔
      ∃ place, disk.follow path = .ok place ∧ disk.item? place = some (.file content) := by
  unfold readFile
  rw [Outcome.bind_eq_ok_iff]
  apply exists_congr
  intro place
  apply and_congr_right
  intro _
  cases disk.item? place with
  | none => simp
  | some item =>
    cases item with
    | directory => simp
    | file found => simp

/-! ## Slashes at the end of a path -/

theorem exists_finalSlashes (path : String) :
    ∃ slashes, path.toList = (withoutFinalSlashes path).toList ++ slashes ∧
      ∀ c ∈ slashes, c = '/' := by
  unfold withoutFinalSlashes
  split
  next => exact ⟨[], by simp, by simp⟩
  next =>
    refine ⟨(path.toList.reverse.takeWhile (· = '/')).reverse, ?_, ?_⟩
    · rw [String.toList_ofList, ← List.reverse_append, List.takeWhile_append_dropWhile,
        List.reverse_reverse]
    · intro c hc
      simpa using List.mem_takeWhile_imp (List.mem_reverse.mp hc)

theorem withoutFinalSlashes_of_not_endsWithSlash (h : endsWithSlash path = false) :
    withoutFinalSlashes path = path := by
  obtain ⟨slashes, hpath, hslashes⟩ := exists_finalSlashes path
  cases slashes using List.reverseRecOn with
  | nil => exact String.toList_inj.mp (by simpa using hpath.symm)
  | append_singleton slashes c =>
    have hc : c = '/' := hslashes c (by simp)
    rw [endsWithSlash, hpath, ← List.append_assoc, List.getLast?_concat, hc] at h
    cases h

theorem withoutFinalSlashes_ne_empty (h : path ≠ "") : withoutFinalSlashes path ≠ "" := by
  unfold withoutFinalSlashes
  split
  next => exact h
  next hkept =>
    intro hempty
    have hnil := congrArg String.toList hempty
    rw [String.toList_ofList] at hnil
    exact hkept (by simpa using hnil)

/-- The names behind final slashes are empty. -/
theorem pathNames_withoutFinalSlashes (h : path ≠ "") :
    ∃ names, pathNames path = pathNames (withoutFinalSlashes path) ++ names ∧
      ∀ name ∈ names, name = "" := by
  obtain ⟨slashes, hpath, hslashes⟩ := exists_finalSlashes path
  refine ⟨slashes.map fun _ => "", ?_, by simp⟩
  have hempties : (slashes.map fun _ => ([] : List Char)).map String.ofList
      = slashes.map fun _ => "" := by simp
  have hkept := withoutFinalSlashes_ne_empty h
  generalize withoutFinalSlashes path = kept at hpath hkept
  cases hchars : kept.toList with
  | nil => exact absurd (String.toList_eq_nil_iff.mp hchars) hkept
  | cons c rest =>
    rw [hchars] at hpath
    simp only [pathNames, isAbsolute, hpath, hchars, List.cons_append, List.head?_cons,
      List.drop_one, List.tail_cons]
    split
    · rw [segments_append_slashes rest hslashes, List.map_append, hempties]
    · rw [← List.cons_append, segments_append_slashes (c :: rest) hslashes, List.map_append,
        hempties]

theorem pathStart_withoutFinalSlashes (h : path ≠ "") :
    pathStart (withoutFinalSlashes path) = pathStart path := by
  obtain ⟨slashes, hpath, -⟩ := exists_finalSlashes path
  have hkept := withoutFinalSlashes_ne_empty h
  cases hchars : (withoutFinalSlashes path).toList with
  | nil => exact absurd (String.toList_eq_nil_iff.mp hchars) hkept
  | cons c rest => simp [pathStart, isAbsolute, hpath, hchars]

/-- A path with slashes at its end leads where it leads without them, if it leads anywhere. -/
theorem follow_withoutFinalSlashes (h : disk.follow path = .ok place) :
    disk.follow (withoutFinalSlashes path) = .ok place := by
  obtain ⟨⟨hnul, hempty, hlong⟩, hwalk⟩ := follow_eq_ok_iff.mp h
  obtain ⟨slashes, hpath, -⟩ := exists_finalSlashes path
  obtain ⟨names, hnames, hempties⟩ := pathNames_withoutFinalSlashes hempty
  have hsize : (withoutFinalSlashes path).utf8ByteSize ≤ path.utf8ByteSize := by
    have hwhole : path = withoutFinalSlashes path ++ String.ofList slashes := by
      rw [← String.toList_inj, hpath, String.toList_append, String.toList_ofList]
    have hsum := congrArg String.utf8ByteSize hwhole
    rw [String.utf8ByteSize_append] at hsum
    omega
  rw [hnames, List.foldlM_append] at hwalk
  obtain ⟨last, hlast, hrest⟩ := Outcome.bind_eq_ok_iff.mp hwalk
  cases foldlM_step_of_empty hempties hrest
  rw [follow_eq_ok_iff, pathStart_withoutFinalSlashes hempty]
  refine ⟨⟨?_, withoutFinalSlashes_ne_empty hempty, hsize.trans hlong⟩, hlast⟩
  intro hmem
  exact hnul (by simp [hpath, hmem])

/-! ## Names of files without their extension -/

theorem no_slash_fileName? (h : fileName? path = some name) : '/' ∉ name.toList := by
  unfold fileName? at h
  split at h
  next last hlast =>
    split at h
    next => cases h
    next =>
      cases h
      exact not_mem_of_mem_pathNames (List.mem_filter.mp (List.mem_of_getLast? hlast)).1
  next => cases h

theorem no_slash_withoutExtension (h : '/' ∉ name.toList) :
    '/' ∉ (withoutExtension name).toList := by
  simp only [withoutExtension]
  split
  next dot c rest hhead =>
    intro hmem
    rw [String.toList_ofList, List.mem_reverse] at hmem
    have hdrop := List.mem_cons_of_mem dot hmem
    rw [← hhead] at hdrop
    exact h (List.mem_reverse.mp (List.mem_of_mem_drop hdrop))
  next => exact h

end FirstFailure.Disk
