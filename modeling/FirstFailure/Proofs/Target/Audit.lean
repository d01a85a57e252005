import FirstFailure.Proofs.Target.Preorder
import FirstFailure.Target.Audit
/-!
# The audit of a document and its tree

An audit goes down the children of each target, but it meets the targets in the order of a walk from
the top: it is a scan of the places of the document in a row. The tree is laid out in the same
order, so both stop short at the same path, and a path that the audit meets again is a path that a
search finds too early. The scan keeps the paths met so far; that no two of these are equal is its
invariant.
-/

namespace FirstFailure

/-- Whether a defect is a path that cannot be read. -/
def TargetDefect.isInvalidPath : TargetDefect → Bool
  | invalidPath _ _ => true
  | _ => false

/-- Whether a defect is a path used before. -/
def TargetDefect.isPathInUse : TargetDefect → Bool
  | pathInUse _ _ => true
  | _ => false

/-- A target in its place in a document. -/
structure TargetPlace where
  /-- The names from the top to the target. -/
  names : String
  /-- Whether an earlier child of the same parent has the same name. -/
  repeated : Bool
  target : TargetSpec

namespace TargetPlace

/-- The path of a target, if it has one that can be read. -/
def path? (place : TargetPlace) : Option Bytes :=
  place.target.physicalPath.bind fun text => (HexPath.parse text).toOption

/-- The issue of a target with a path that cannot be read. -/
def pathIssue? (place : TargetPlace) : Option TargetIssue :=
  place.target.physicalPath.bind fun text =>
    match HexPath.parse text with
    | .error fault => some ⟨place.names, .invalidPath text fault⟩
    | .ok _ => none

/-- The issue of a target named like an earlier sibling. -/
def namingIssues (place : TargetPlace) : List TargetIssue :=
  if place.repeated then [⟨place.names, .duplicateName⟩] else []

theorem defect_of_mem_namingIssues {place : TargetPlace} {issue : TargetIssue}
    (h : issue ∈ place.namingIssues) : issue.defect = .duplicateName := by
  unfold namingIssues at h
  split at h
  next => rw [List.mem_singleton.mp h]
  next => cases h

/-- A target has a path issue when, and because, its path makes the error of a tree. -/
theorem pathIssue?_eq_map (place : TargetPlace) :
    place.pathIssue? = (TargetTree.pathError? place.target).map fun error =>
      ⟨place.names, .invalidPath error.text error.fault⟩ := by
  rw [pathIssue?, TargetTree.pathError?]
  cases place.target.physicalPath with
  | none => rfl
  | some text =>
    simp only [Option.bind_some, TargetTree.physicalPath]
    cases HexPath.parse text <;> rfl

end TargetPlace

namespace TargetDocument

open TargetSpec

/-! ## Places -/

mutual

/-- The places of a target and of those below it, known as in an audit. -/
def placesOf (above : String) (siblings : List String) : TargetSpec → List TargetPlace
  | ⟨name, physicalPath, devicePath, locationCode, unitId, children⟩ =>
    ⟨above ++ "/" ++ name, siblings.contains name,
        ⟨name, physicalPath, devicePath, locationCode, unitId, children⟩⟩
      :: placesAll (above ++ "/" ++ name) [] children

/-- The places of several children of one parent and of those below them. -/
def placesAll (above : String) (siblings : List String) : List TargetSpec → List TargetPlace
  | [] => []
  | target :: rest =>
    placesOf above siblings target ++ placesAll above (siblings ++ [target.name]) rest

end

/-- The places of a document from the top. -/
def places (document : TargetDocument) : List TargetPlace := placesAll "" [] document.targets

theorem placesAll_cons (above : String) (siblings : List String) (target : TargetSpec)
    (rest : List TargetSpec) :
    placesAll above siblings (target :: rest)
      = ⟨above ++ "/" ++ target.name, siblings.contains target.name, target⟩
        :: (placesAll (above ++ "/" ++ target.name) [] target.children
          ++ placesAll above (siblings ++ [target.name]) rest) := by
  cases target
  rw [placesAll, placesOf]
  rfl

theorem map_target_placesAll (above : String) (siblings : List String)
    (forest : List TargetSpec) :
    (placesAll above siblings forest).map (·.target) = preorderAll forest := by
  induction forest using forest_induction generalizing above siblings with
  | nil => rfl
  | cons target rest hchildren hrest =>
    rw [placesAll_cons, preorderAll_cons, List.map_cons, List.map_append, hchildren, hrest]

theorem map_target_places (document : TargetDocument) :
    document.places.map (·.target) = preorderAll document.targets :=
  map_target_placesAll _ _ _

theorem filterMap_path?_places (document : TargetDocument) :
    document.places.filterMap (·.path?) = decodedPaths document.targets := by
  rw [decodedPaths, ← map_target_places, List.filterMap_map]
  rfl

/-! ## The scan -/

/-- The issues of one place, and the owners behind it. -/
def auditPlace (owners : PathOwners) (place : TargetPlace) : List TargetIssue × PathOwners :=
  let own := auditPath owners place.names place.target.physicalPath
  (place.namingIssues ++ own.1, own.2)

/-- The issues of places in a row, and the owners behind them. -/
def auditPlaces (owners : PathOwners) : List TargetPlace → List TargetIssue × PathOwners
  | [] => ([], owners)
  | place :: rest =>
    let first := auditPlace owners place
    let others := auditPlaces first.2 rest
    (first.1 ++ others.1, others.2)

theorem auditPlaces_append (owners : PathOwners) (front back : List TargetPlace) :
    auditPlaces owners (front ++ back)
      = ((auditPlaces owners front).1 ++ (auditPlaces (auditPlaces owners front).2 back).1,
        (auditPlaces (auditPlaces owners front).2 back).2) := by
  induction front generalizing owners with
  | nil => rfl
  | cons place rest ih => simp [auditPlaces, ih]

theorem auditTarget_eq (owners : PathOwners) (above : String) (siblings : List String)
    (target : TargetSpec) :
    auditTarget owners above siblings target
      = ((if siblings.contains target.name then
            [⟨above ++ "/" ++ target.name, .duplicateName⟩]
          else [])
          ++ (auditPath owners (above ++ "/" ++ target.name) target.physicalPath).1
          ++ (auditAll (auditPath owners (above ++ "/" ++ target.name) target.physicalPath).2
              (above ++ "/" ++ target.name) [] target.children).1,
        (auditAll (auditPath owners (above ++ "/" ++ target.name) target.physicalPath).2
          (above ++ "/" ++ target.name) [] target.children).2) := by
  cases target
  rw [auditTarget]

/-- An audit is a scan of the places. -/
theorem auditAll_eq_auditPlaces (owners : PathOwners) (above : String) (siblings : List String)
    (forest : List TargetSpec) :
    auditAll owners above siblings forest
      = auditPlaces owners (placesAll above siblings forest) := by
  induction forest using forest_induction generalizing owners above siblings with
  | nil => rfl
  | cons target rest hchildren hrest =>
    rw [placesAll_cons, auditPlaces, auditPlaces_append, ← hchildren, ← hrest, auditAll,
      auditTarget_eq]
    simp only [auditPlace, TargetPlace.namingIssues, List.append_assoc]

theorem audit_eq (document : TargetDocument) :
    document.audit = (auditPlaces [] document.places).1 := by
  rw [audit, places, auditAll_eq_auditPlaces]

/-! ## Paths that cannot be read -/

theorem filter_isInvalidPath_auditPlace (owners : PathOwners) (place : TargetPlace) :
    (auditPlace owners place).1.filter (·.defect.isInvalidPath) = place.pathIssue?.toList := by
  have hnaming : place.namingIssues.filter (·.defect.isInvalidPath) = [] := by
    rw [List.filter_eq_nil_iff]
    intro issue hissue
    simp [TargetPlace.defect_of_mem_namingIssues hissue, TargetDefect.isInvalidPath]
  rw [auditPlace, List.filter_append, hnaming, List.nil_append, auditPath.eq_def,
    TargetPlace.pathIssue?]
  cases place.target.physicalPath with
  | none => rfl
  | some text =>
    cases hparse : HexPath.parse text with
    | error fault => simp [hparse, TargetDefect.isInvalidPath]
    | ok path =>
      cases howner : owner? owners path <;>
        simp [hparse, howner, TargetDefect.isInvalidPath]

/-- The issues with paths that cannot be read are those of the places one by one, whatever else the
scan has met. -/
theorem filter_isInvalidPath_auditPlaces (owners : PathOwners) (places : List TargetPlace) :
    (auditPlaces owners places).1.filter (·.defect.isInvalidPath)
      = places.filterMap (·.pathIssue?) := by
  induction places generalizing owners with
  | nil => rfl
  | cons place rest ih =>
    rw [auditPlaces, List.filter_append, filter_isInvalidPath_auditPlace, ih, List.filterMap_cons]
    cases place.pathIssue? <;> rfl

/-! ## Paths used before -/

theorem owner?_eq_none_iff {owners : PathOwners} {path : Bytes} :
    owner? owners path = none ↔ path ∉ owners.map (·.1) := by
  rw [owner?, Option.map_eq_none_iff, List.find?_eq_none]
  constructor
  · intro h hmem
    obtain ⟨owner, howner, rfl⟩ := List.mem_map.mp hmem
    exact h owner howner (by simp)
  · intro h owner howner hpath
    exact h (List.mem_map.mpr ⟨owner, howner, by simpa using hpath⟩)

/-- What a place does to the paths met so far: nothing without a path that can be read; an issue
when the path was met before; and otherwise the path is kept. -/
theorem auditPlace_cases (owners : PathOwners) (place : TargetPlace) :
    (place.path? = none ∧ (auditPlace owners place).2 = owners ∧
        (auditPlace owners place).1.any (·.defect.isPathInUse) = false) ∨
      ∃ path, place.path? = some path ∧
        ((path ∈ owners.map (·.1) ∧
            (auditPlace owners place).1.any (·.defect.isPathInUse) = true) ∨
          (path ∉ owners.map (·.1) ∧
            (auditPlace owners place).2 = owners ++ [(path, place.names)] ∧
            (auditPlace owners place).1.any (·.defect.isPathInUse) = false)) := by
  have hnaming : place.namingIssues.any (·.defect.isPathInUse) = false := by
    rw [List.any_eq_false]
    intro issue hissue
    simp [TargetPlace.defect_of_mem_namingIssues hissue, TargetDefect.isPathInUse]
  simp only [auditPlace, List.any_append, hnaming, Bool.false_or, TargetPlace.path?]
  cases place.target.physicalPath with
  | none => exact .inl ⟨rfl, rfl, rfl⟩
  | some text =>
    cases hparse : HexPath.parse text with
    | error fault => simp [auditPath, hparse, Except.toOption, TargetDefect.isPathInUse]
    | ok path =>
      refine .inr ⟨path, by simp [hparse, Except.toOption], ?_⟩
      cases howner : owner? owners path with
      | none =>
        exact .inr ⟨owner?_eq_none_iff.mp howner, by simp [auditPath, hparse, howner],
          by simp [auditPath, hparse, howner]⟩
      | some owner =>
        refine .inl ⟨?_, by simp [auditPath, hparse, howner, TargetDefect.isPathInUse]⟩
        by_contra hnew
        rw [owner?_eq_none_iff.mpr hnew] at howner
        cases howner

/-- A scan meets no path again exactly when the paths before it and its own are all different. -/
theorem any_isPathInUse_auditPlaces (owners : PathOwners) (howners : (owners.map (·.1)).Nodup)
    (places : List TargetPlace) :
    (auditPlaces owners places).1.any (·.defect.isPathInUse) = false ↔
      (owners.map (·.1) ++ places.filterMap (·.path?)).Nodup := by
  induction places generalizing owners with
  | nil => simpa [auditPlaces] using howners
  | cons place rest ih =>
    rw [auditPlaces, List.any_append, Bool.or_eq_false_iff, List.filterMap_cons]
    obtain ⟨hpath, hkept, hunused⟩ | ⟨path, hpath, ⟨hmem, hused⟩ | ⟨hnew, hkept, hunused⟩⟩ :=
      auditPlace_cases owners place
    · simp only [hpath, hkept, hunused, true_and]
      exact ih owners howners
    · simp only [hpath, hused, Bool.true_eq_false, false_and, false_iff]
      intro hnodup
      exact (List.nodup_append.mp hnodup).2.2 path hmem path (by simp) rfl
    · -- The path is new, so those kept stay different and the rest is scanned with one more.
      have howners' : ((owners ++ [(path, place.names)]).map (·.1)).Nodup := by
        rw [List.map_append, List.nodup_append]
        refine ⟨howners, by simp, ?_⟩
        rintro earlier hearlier _ (_ | ⟨_, ⟨⟩⟩) rfl
        exact hnew hearlier
      simp only [hpath, hkept, hunused, true_and]
      rw [ih _ howners', List.map_append, List.append_assoc]
      rfl

/-! ## Documents -/

theorem filter_isInvalidPath_audit (document : TargetDocument) :
    document.audit.filter (·.defect.isInvalidPath)
      = document.places.filterMap (·.pathIssue?) := by
  rw [audit_eq, filter_isInvalidPath_auditPlaces]

/-- The error of a tree is that of the first place with a path issue. -/
theorem ofDocument_eq_error_iff_places {document : TargetDocument} {error : TreeError} :
    TargetTree.ofDocument document = .error error ↔
      ∃ before place after, document.places = before ++ place :: after ∧
        TargetTree.pathError? place.target = some error ∧
        ∀ earlier ∈ before, TargetTree.pathError? earlier.target = none := by
  rw [TargetTree.ofDocument_eq_error_iff, ← map_target_places, List.findSome?_map,
    List.findSome?_eq_some_iff]
  rfl

/-- A document describes no tree exactly when its audit has an issue with a path that cannot be
read. -/
theorem exists_error_iff (document : TargetDocument) :
    (∃ error, TargetTree.ofDocument document = .error error) ↔
      ∃ issue ∈ document.audit, issue.defect.isInvalidPath = true := by
  have hissues : ∀ issue, issue ∈ document.audit ∧ issue.defect.isInvalidPath = true ↔
      ∃ place ∈ document.places, place.pathIssue? = some issue := by
    intro issue
    rw [← List.mem_filterMap, ← filter_isInvalidPath_audit, List.mem_filter]
  constructor
  · rintro ⟨error, herror⟩
    obtain ⟨before, place, after, hplaces, herror, -⟩ := ofDocument_eq_error_iff_places.mp herror
    refine ⟨_, (hissues ⟨place.names, .invalidPath error.text error.fault⟩).mpr ⟨place, ?_, ?_⟩⟩
    · simp [hplaces]
    · rw [TargetPlace.pathIssue?_eq_map, herror, Option.map_some]
  · rintro ⟨issue, hissue⟩
    obtain ⟨place, hplace, hissue⟩ := (hissues issue).mp hissue
    rw [TargetPlace.pathIssue?_eq_map, Option.map_eq_some_iff] at hissue
    obtain ⟨error, herror, -⟩ := hissue
    have hmem : place.target ∈ preorderAll document.targets := by
      rw [← map_target_places]
      exact List.mem_map_of_mem hplace
    have hsome : ((preorderAll document.targets).findSome? TargetTree.pathError?).isSome := by
      rw [List.findSome?_isSome_iff]
      exact ⟨_, hmem, by rw [herror]; rfl⟩
    obtain ⟨first, hfirst⟩ := Option.isSome_iff_exists.mp hsome
    exact ⟨first, TargetTree.ofDocument_eq_error_iff.mpr hfirst⟩

/-- The first issue with a path that cannot be read is that of the first place that has one. -/
theorem find?_isInvalidPath {document : TargetDocument} {before after : List TargetPlace}
    {place : TargetPlace} {issue : TargetIssue}
    (hplaces : document.places = before ++ place :: after)
    (hbefore : ∀ earlier ∈ before, earlier.pathIssue? = none)
    (hissue : place.pathIssue? = some issue) :
    document.audit.find? (·.defect.isInvalidPath) = some issue := by
  rw [← List.head?_filter, filter_isInvalidPath_audit, hplaces, List.filterMap_append,
    List.filterMap_eq_nil_iff.mpr hbefore, List.nil_append, List.filterMap_cons_some hissue,
    List.head?_cons]

/-- The audit of a document with a tree meets no path again exactly when a search from the root
finds every target that has a path. -/
theorem forall_isPathInUse_iff {document : TargetDocument} {tree : TargetTree}
    (h : TargetTree.ofDocument document = .ok tree) :
    (∀ issue ∈ document.audit, issue.defect.isPathInUse = false) ↔
      ∀ handle path, (tree.node? handle).bind (·.physicalPath) = some path →
        tree.findByPath 0 path = some handle := by
  have hscan := any_isPathInUse_auditPlaces [] (by simp) document.places
  rw [← TargetTree.decodedPaths_nodup_iff h, ← filterMap_path?_places, audit_eq]
  simpa using hscan

/-- A document without defects describes a tree, and a search from its root finds every target that
has a path. -/
theorem exists_tree_of_audit {document : TargetDocument} (h : document.audit = []) :
    ∃ tree, TargetTree.ofDocument document = .ok tree ∧
      ∀ handle path, (tree.node? handle).bind (·.physicalPath) = some path →
        tree.findByPath 0 path = some handle := by
  cases htree : TargetTree.ofDocument document with
  | error error =>
    obtain ⟨issue, hissue, -⟩ := (exists_error_iff document).mp ⟨error, htree⟩
    simp [h] at hissue
  | ok tree => exact ⟨tree, rfl, (forall_isPathInUse_iff htree).mp (by simp [h])⟩

/-- What an audit tells of the tree of a document. -/
structure AuditAgrees (document : TargetDocument) : Prop where
  /-- The issues with paths that cannot be read are those of the places, from the top. -/
  issues : document.audit.filter (·.defect.isInvalidPath)
    = document.places.filterMap (·.pathIssue?)
  /-- There is no tree exactly when there is such an issue. -/
  fails : (∃ error, TargetTree.ofDocument document = .error error) ↔
    ∃ issue ∈ document.audit, issue.defect.isInvalidPath = true
  /-- The error tells the name, the text and the fault of the target with the first such issue. -/
  first : ∀ error, TargetTree.ofDocument document = .error error →
    ∃ before place after, document.places = before ++ place :: after ∧
      (∀ earlier ∈ before, earlier.pathIssue? = none) ∧
      document.audit.find? (·.defect.isInvalidPath)
        = some ⟨place.names, .invalidPath error.text error.fault⟩ ∧
      place.target.name = error.target ∧
      place.target.physicalPath = some error.text ∧
      HexPath.parse error.text = .error error.fault
  /-- The tree holds the targets of the places behind its root, with their paths read. -/
  targets : ∀ tree, TargetTree.ofDocument document = .ok tree →
    List.Forall₂ TargetTree.Represents (document.places.map (·.target)) tree.nodes.tail
  /-- No path is used again exactly when every target with a path is the one found by it. -/
  unique : ∀ tree, TargetTree.ofDocument document = .ok tree →
    ((∀ issue ∈ document.audit, issue.defect.isPathInUse = false) ↔
      ∀ handle path, (tree.node? handle).bind (·.physicalPath) = some path →
        tree.findByPath 0 path = some handle)

/-- The audit of any document agrees with the tree that is made of it. -/
theorem audit_agrees_with_tree (document : TargetDocument) : AuditAgrees document where
  issues := filter_isInvalidPath_audit document
  fails := exists_error_iff document
  first := by
    intro error herror
    obtain ⟨before, place, after, hplaces, herror, hbefore⟩ :=
      ofDocument_eq_error_iff_places.mp herror
    have hnone : ∀ earlier ∈ before, earlier.pathIssue? = none := by
      intro earlier hearlier
      rw [TargetPlace.pathIssue?_eq_map, hbefore earlier hearlier, Option.map_none]
    have hissue : place.pathIssue? = some ⟨place.names, .invalidPath error.text error.fault⟩ := by
      rw [TargetPlace.pathIssue?_eq_map, herror, Option.map_some]
    exact ⟨before, place, after, hplaces, hnone, find?_isInvalidPath hplaces hnone hissue,
      TargetTree.pathError?_eq_some_iff.mp herror⟩
  targets := by
    intro tree htree
    obtain ⟨nodes, hnodes, rfl⟩ := TargetTree.ofDocument_eq_ok_iff.mp htree
    rw [map_target_places]
    exact TargetTree.represents_of_flattenAll hnodes
  unique := fun _ htree => forall_isPathInUse_iff htree

/-- Two targets with one path in two spellings. -/
def sharedPath : TargetDocument where
  targets := [
    { name := "a", children := [{ name := "b", physicalPath := some "0xAB" }] },
    { name := "c", physicalPath := some "ab" }]

/-- Two targets with paths that cannot be read, the first one below a sibling of the second. -/
def unreadablePaths : TargetDocument where
  targets := [
    { name := "a", children := [{ name := "b", physicalPath := some "0xg" }] },
    { name := "c", physicalPath := some "abc" }]

/-- A search misses one of two targets that share a path, and the first path that cannot be read
decides the error. -/
theorem audit_agrees_with_tree_samples :
    (∃ tree, TargetTree.ofDocument sharedPath = .ok tree ∧
      sharedPath.audit = [⟨"/c", .pathInUse "ab" "/a/b"⟩] ∧
      ¬∀ handle path, (tree.node? handle).bind (·.physicalPath) = some path →
        tree.findByPath 0 path = some handle) ∧
    TargetTree.ofDocument unreadablePaths = .error ⟨"b", "0xg", .notHexDigit 'g'⟩ ∧
    ∃ place ∈ unreadablePaths.places, place.target.name = "b" ∧
      unreadablePaths.audit.find? (·.defect.isInvalidPath)
        = some ⟨place.names, .invalidPath "0xg" (.notHexDigit 'g')⟩ := by
  constructor
  · have hok : (TargetTree.ofDocument sharedPath).toOption.isSome = true := by decide +kernel
    have haudit : sharedPath.audit = [⟨"/c", .pathInUse "ab" "/a/b"⟩] := by decide +kernel
    obtain ⟨tree, hsome⟩ := Option.isSome_iff_exists.mp hok
    have htree := Outcome.toOption_eq_some_iff.mp hsome
    refine ⟨tree, htree, haudit, fun hfind => ?_⟩
    have hunused := ((audit_agrees_with_tree sharedPath).unique tree htree).mpr hfind
    simp [haudit, TargetDefect.isPathInUse] at hunused
  · have herror : TargetTree.ofDocument unreadablePaths
        = .error ⟨"b", "0xg", .notHexDigit 'g'⟩ := by decide +kernel
    obtain ⟨before, place, after, hplaces, -, hfind, hname, -⟩ :=
      (audit_agrees_with_tree unreadablePaths).first _ herror
    exact ⟨herror, place, by simp [hplaces], hname, hfind⟩

end TargetDocument

end FirstFailure
