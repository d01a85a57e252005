import FirstFailure.Proofs.Target.Audit
import FirstFailure.Proofs.Target.Positions
import FirstFailure.Proofs.Target.Spelling
import Mathlib.Data.List.Find
import Mathlib.Data.List.Nodup
/-!
# The defects that an audit lists

Which issues a target has depends on its position only: on the earlier children of its parent, for
its name, and on all positions before its own, for its path. An audit lists these issues position by
position. The owners that it keeps are no more than a record of the positions behind it: what they
know of a path is the first of these positions that has it.
-/

namespace FirstFailure

/-- The positions of the earlier children of the same parent. -/
def TargetPosition.earlierSiblings (position : TargetPosition) : List TargetPosition :=
  match position.getLast? with
  | none => []
  | some number => (List.range number).map fun earlier => position.dropLast ++ [earlier]

namespace TargetSpec

/-! ## Names by position -/

/-- How the target at a position is known: the names on the way, each behind a slash. -/
def namesTo (target : TargetSpec) : TargetPosition → String
  | [] => ""
  | number :: rest =>
    match target.children[number]? with
    | none => ""
    | some child => "/" ++ child.name ++ child.namesTo rest

/-- Whether an earlier child of the same parent has the name of the target at a position. -/
def nameTaken (target : TargetSpec) (position : TargetPosition) : Bool :=
  (TargetPosition.earlierSiblings position).any fun earlier =>
    target.name? earlier = target.name? position

variable {target child : TargetSpec} {number : Nat}

theorem name?_cons (h : target.children[number]? = some child) (position : TargetPosition) :
    target.name? (number :: position) = child.name? position := by
  simp only [name?, at?_cons, h, Option.bind_some]

theorem namesTo_cons (h : target.children[number]? = some child) (position : TargetPosition) :
    target.namesTo (number :: position) = "/" ++ child.name ++ child.namesTo position := by
  simp only [namesTo, h]

theorem nameTaken_concat_iff (target : TargetSpec) (above : TargetPosition) (number : Nat) :
    target.nameTaken (above ++ [number]) = true ↔
      ∃ earlier < number, target.name? (above ++ [earlier]) = target.name? (above ++ [number]) := by
  simp [nameTaken, TargetPosition.earlierSiblings]

/-- Whether a name is taken is seen from the target or from any target above it. -/
theorem nameTaken_cons (h : target.children[number]? = some child) {position : TargetPosition}
    (hposition : position ≠ []) :
    target.nameTaken (number :: position) = child.nameTaken position := by
  obtain ⟨above, last, rfl⟩ := (List.eq_nil_or_concat position).resolve_left hposition
  rw [List.concat_eq_append, Bool.eq_iff_iff, ← List.cons_append, nameTaken_concat_iff,
    nameTaken_concat_iff]
  simp only [List.cons_append, name?_cons h]

theorem nameTaken_singleton (h : target.children[number]? = some child) :
    target.nameTaken [number]
      = ((target.children.take number).map (·.name)).contains child.name := by
  have hown : target.name? [number] = some child.name := name?_cons h []
  have hlt : number < target.children.length := (List.getElem?_eq_some_iff.mp h).1
  rw [Bool.eq_iff_iff, ← List.nil_append [number], nameTaken_concat_iff, List.nil_append, hown,
    List.contains_iff_mem, List.mem_map]
  constructor
  · intro ⟨earlier, hearlier, hname⟩
    have hchild := List.getElem?_eq_getElem (Nat.lt_trans hearlier hlt)
    rw [List.nil_append, name?_cons hchild, name?, at?_nil, Option.map_some, Option.some.injEq]
      at hname
    exact ⟨_, List.mem_take_iff_getElem.mpr ⟨earlier, by omega, rfl⟩, hname⟩
  · intro ⟨sibling, hsibling, hname⟩
    obtain ⟨earlier, hearlier, rfl⟩ := List.mem_take_iff_getElem.mp hsibling
    refine ⟨earlier, by omega, ?_⟩
    rw [List.nil_append, name?_cons (List.getElem?_eq_getElem (by omega)), ← hname]
    rfl

end TargetSpec

namespace TargetDocument

open TargetSpec

/-! ## Places by position -/

/-- The place of the target at a position, seen from a target above it that is known as `above`. -/
def placeAt? (above : String) (top : TargetSpec) (position : TargetPosition) : Option TargetPlace :=
  (top.at? position).map fun target =>
    ⟨above ++ top.namesTo position, top.nameTaken position, target⟩

theorem placeAt?_cons {top child : TargetSpec} {number : Nat}
    (h : top.children[number]? = some child) (above : String) {position : TargetPosition}
    (hposition : position ≠ []) :
    placeAt? above top (number :: position)
      = placeAt? (above ++ "/" ++ child.name) child position := by
  simp only [placeAt?, at?_cons, h, Option.bind_some, namesTo_cons h,
    nameTaken_cons h hposition, String.append_assoc]

/-- The places of children in a row are those of their positions. -/
theorem map_placeAt?_positionsFrom {top : TargetSpec} {number : Nat} {forest : List TargetSpec}
    (h : top.children.drop number = forest) (above : String) :
    (positionsFrom number forest).map (placeAt? above top)
      = (placesAll above ((top.children.take number).map (·.name)) forest).map some := by
  induction forest using forest_induction generalizing top number above with
  | nil => rfl
  | cons child rest hchildren hrest =>
    obtain ⟨hchild, hothers⟩ := children_of_drop h
    have hfirst : placeAt? above top [number] = some ⟨above ++ "/" ++ child.name,
        ((top.children.take number).map (·.name)).contains child.name, child⟩ := by
      simp [placeAt?, at?_cons, hchild, namesTo, nameTaken_singleton hchild, String.append_assoc]
    have hbelow : ((positionsFrom 0 child.children).map (number :: ·)).map (placeAt? above top)
        = (placesAll (above ++ "/" ++ child.name) [] child.children).map some := by
      rw [← List.map_nil (f := fun target : TargetSpec => target.name),
        ← List.take_zero (l := child.children), ← hchildren List.drop_zero, List.map_map]
      apply List.map_congr_left
      intro position hposition
      obtain ⟨first, below, rfl, -⟩ := exists_first_of_mem hposition
      exact placeAt?_cons hchild above (by simp)
    have hsiblings : (top.children.take (number + 1)).map (·.name)
        = (top.children.take number).map (·.name) ++ [child.name] := by
      rw [List.take_add_one, hchild, List.map_append]
      rfl
    rw [positionsFrom_cons, placesAll_cons, List.map_cons, List.map_append, hbelow, hfirst,
      hrest hothers, hsiblings, List.map_cons, List.map_append]

theorem map_placeAt?_positions (document : TargetDocument) :
    document.positions.tail.map (placeAt? "" document.system) = document.places.map some := by
  rw [positions_eq, List.tail_cons]
  exact map_placeAt?_positionsFrom List.drop_zero ""

/-! ## Issues by position -/

variable {document : TargetDocument} {owners : PathOwners} {position : TargetPosition}
  {place : TargetPlace} {before after rest : List TargetPosition}

/-- The first position before the given one that has a path. -/
def firstOwner? (document : TargetDocument) (position : TargetPosition) (path : Bytes) :
    Option TargetPosition :=
  document.positions.find? fun earlier =>
    earlier < position ∧ document.path? earlier = some path

/-- The issues of the target at a position. -/
def issuesAt (document : TargetDocument) (position : TargetPosition) : List TargetIssue :=
  match document.system.at? position with
  | none => []
  | some target =>
    let names := document.system.namesTo position
    (if document.system.nameTaken position then [⟨names, .duplicateName⟩] else [])
      ++ match target.physicalPath with
        | none => []
        | some text =>
          match HexPath.parse text with
          | .error fault => [⟨names, .invalidPath text fault⟩]
          | .ok path =>
            match document.firstOwner? position path with
            | none => []
            | some owner => [⟨names, .pathInUse text (document.system.namesTo owner)⟩]

/-- What is reported of the target at a position: how the target is known and what is said of it. -/
def reportsAt (document : TargetDocument) (position : TargetPosition) : List (String × String) :=
  match document.system.at? position with
  | none => []
  | some target =>
    let names := document.system.namesTo position
    (if document.system.nameTaken position then [(names, "duplicate sibling name")] else [])
      ++ match target.physicalPath with
        | none => []
        | some text =>
          match HexPath.parse text with
          | .error fault => [(names, "invalid physical path '" ++ text ++ "': " ++ fault.message)]
          | .ok path =>
            match document.firstOwner? position path with
            | none => []
            | some owner =>
              [(names, "physical path " ++ text ++ " already used by "
                ++ document.system.namesTo owner)]

theorem reportsAt_eq (document : TargetDocument) (position : TargetPosition) :
    document.reportsAt position
      = (document.issuesAt position).map fun issue => (issue.names, issue.defect.message) := by
  unfold reportsAt issuesAt
  cases document.system.at? position with
  | none => rfl
  | some target =>
    have hname : (if document.system.nameTaken position then
          [(document.system.namesTo position, "duplicate sibling name")] else [])
        = (if document.system.nameTaken position then
          [TargetIssue.mk (document.system.namesTo position) .duplicateName] else []).map
            fun issue => (issue.names, issue.defect.message) := by
      cases document.system.nameTaken position with
      | true => rfl
      | false => rfl
    simp only [List.map_append, hname, List.append_cancel_left_eq]
    cases target.physicalPath with
    | none => rfl
    | some text =>
      simp only
      cases HexPath.parse text with
      | error fault => rfl
      | ok path =>
        simp only
        cases document.firstOwner? position path with
        | none => rfl
        | some owner => rfl

/-- What owners know when they record the paths of some positions: the first that has a path. -/
def Records (document : TargetDocument) (owners : PathOwners) (before : List TargetPosition) :
    Prop :=
  ∀ path, owner? owners path
    = (before.find? fun earlier => document.path? earlier = some path).map document.system.namesTo

/-- In the order of a walk, the positions before one are those that stand in front of it. -/
theorem firstOwner?_eq (h : document.positions = before ++ position :: after) (path : Bytes) :
    document.firstOwner? position path
      = before.find? fun earlier => document.path? earlier = some path := by
  have hordered := pairwise_positions document.system
  rw [← positions, h, List.pairwise_append, List.pairwise_cons] at hordered
  obtain ⟨-, ⟨hafter, -⟩, hbefore⟩ := hordered
  have hlater : (position :: after).find? (fun earlier =>
      decide (earlier < position ∧ document.path? earlier = some path)) = none := by
    rw [List.find?_eq_none]
    intro later hlater
    have hle : ¬later < position := by
      rcases List.mem_cons.mp hlater with rfl | hlater
      · exact List.lt_irrefl _
      · exact List.lt_asymm (hafter later hlater)
    simp [hle]
  rw [firstOwner?, h, List.find?_append, hlater, Option.or_none]
  apply List.find?_congr
  intro earlier hearlier
  simp [hbefore earlier hearlier position (by simp)]

theorem mem_positions_of_path? {path : Bytes} (h : document.path? position = some path) :
    position ∈ document.positions := by
  obtain ⟨target, htarget, -⟩ := Option.bind_eq_some_iff.mp h
  exact mem_positions.mpr (by rw [htarget]; rfl)

/-- The first owner of a path is before the position, and no earlier position has the path. -/
theorem firstOwner?_eq_some_iff (document : TargetDocument) (position owner : TargetPosition)
    (path : Bytes) :
    document.firstOwner? position path = some owner ↔
      owner < position ∧ document.path? owner = some path ∧
        ∀ earlier < owner, document.path? earlier ≠ some path := by
  have hordered : document.positions.Pairwise (· < ·) := pairwise_positions document.system
  rw [firstOwner?, List.find?_eq_some_iff_append]
  simp only [decide_eq_true_eq, Bool.not_eq_true', decide_eq_false_iff_not, not_and]
  constructor
  · intro ⟨⟨hlt, hpath⟩, front, back, hsplit, hfront⟩
    refine ⟨hlt, hpath, fun earlier hearlier hsame => ?_⟩
    have hmem := mem_positions_of_path? hsame
    rw [hsplit, List.mem_append] at hmem
    rcases hmem with hmem | hmem
    · exact hfront earlier hmem (List.lt_trans hearlier hlt) hsame
    · rw [hsplit, List.pairwise_append, List.pairwise_cons] at hordered
      rcases List.mem_cons.mp hmem with rfl | hmem
      · exact List.lt_irrefl _ hearlier
      · exact List.lt_asymm hearlier (hordered.2.1.1 earlier hmem)
  · intro ⟨hlt, hpath, hfirst⟩
    obtain ⟨front, back, hsplit⟩ := List.append_of_mem (mem_positions_of_path? hpath)
    rw [hsplit, List.pairwise_append] at hordered
    refine ⟨⟨hlt, hpath⟩, front, back, hsplit, fun earlier hearlier _ => ?_⟩
    exact hfirst earlier (hordered.2.2 earlier hearlier owner (by simp))

theorem owner?_concat (owners : PathOwners) (path other : Bytes) (names : String) :
    owner? (owners ++ [(path, names)]) other
      = (owner? owners other).or (if path = other then some names else none) := by
  rw [owner?, List.find?_append, Option.map_or]
  by_cases h : path = other <;> simp [owner?, h]

/-- A position without a path adds nothing to a record. -/
theorem Records.concat_of_none (h : document.Records owners before)
    (hpath : document.path? position = none) : document.Records owners (before ++ [position]) := by
  intro other
  simp [h other, hpath]

/-- A path that is recorded keeps its owner. -/
theorem Records.concat_of_used {path : Bytes} {names : String}
    (h : document.Records owners before) (hpath : document.path? position = some path)
    (hused : owner? owners path = some names) :
    document.Records owners (before ++ [position]) := by
  intro other
  by_cases hother : path = other
  · rw [← hother, hused, List.find?_append, Option.map_or, ← h path, hused, Option.some_or]
  · simp [h other, hpath, hother]

/-- A new path is recorded. -/
theorem Records.concat_of_new {path : Bytes} (h : document.Records owners before)
    (hpath : document.path? position = some path) :
    document.Records (owners ++ [(path, document.system.namesTo position)])
      (before ++ [position]) := by
  intro other
  rw [owner?_concat, List.find?_append, Option.map_or, ← h other]
  by_cases hother : path = other <;> simp [hpath, hother]

/-- A place has the issues of its position, and its path is recorded if it is new. -/
theorem auditPlace_of_records (h : document.positions = before ++ position :: after)
    (hplace : placeAt? "" document.system position = some place)
    (hrecords : document.Records owners before) :
    (auditPlace owners place).1 = document.issuesAt position ∧
      document.Records (auditPlace owners place).2 (before ++ [position]) := by
  obtain ⟨target, htarget, rfl⟩ := Option.map_eq_some_iff.mp hplace
  simp only [issuesAt, auditPlace, TargetPlace.namingIssues, htarget, String.empty_append,
    List.append_cancel_left_eq]
  cases hphysical : target.physicalPath with
  | none =>
    have hpath : document.path? position = none := by simp [path?, htarget, hphysical]
    exact ⟨rfl, hrecords.concat_of_none hpath⟩
  | some text =>
    cases hparse : HexPath.parse text with
    | error fault =>
      have hpath : document.path? position = none := by
        simp [path?, htarget, hphysical, hparse, Except.toOption]
      simp only [auditPath, hparse]
      exact ⟨trivial, hrecords.concat_of_none hpath⟩
    | ok path =>
      have hpath : document.path? position = some path := by
        simp [path?, htarget, hphysical, hparse, Except.toOption]
      have howner := hrecords path
      rw [← firstOwner?_eq h] at howner
      cases hfirst : document.firstOwner? position path with
      | none =>
        rw [hfirst, Option.map_none] at howner
        simp only [auditPath, hparse, howner, hfirst]
        exact ⟨trivial, hrecords.concat_of_new hpath⟩
      | some owner =>
        rw [hfirst, Option.map_some] at howner
        simp only [auditPath, hparse, howner, hfirst]
        exact ⟨trivial, hrecords.concat_of_used hpath howner⟩

/-- A scan lists the issues of the positions that it passes. -/
theorem auditPlaces_eq_flatMap {places : List TargetPlace}
    (h : document.positions = before ++ rest)
    (hplaces : rest.map (placeAt? "" document.system) = places.map some)
    (hrecords : document.Records owners before) :
    (auditPlaces owners places).1 = rest.flatMap document.issuesAt := by
  induction rest generalizing before owners places with
  | nil =>
    rw [List.map_nil, eq_comm, List.map_eq_nil_iff] at hplaces
    rw [hplaces, auditPlaces, List.flatMap_nil]
  | cons position rest ih =>
    obtain ⟨place, others, rfl, hplace, hothers⟩ := List.map_eq_cons_iff.mp hplaces.symm
    obtain ⟨hissues, hrecords⟩ := auditPlace_of_records h hplace.symm hrecords
    rw [auditPlaces, List.flatMap_cons, hissues,
      ih (by rw [h, List.append_assoc, List.singleton_append]) hothers.symm hrecords]

/-- An audit lists the issues of each position, in the order of a walk from the top. -/
theorem audit_eq_flatMap (document : TargetDocument) :
    document.audit = document.positions.tail.flatMap document.issuesAt := by
  have hsplit : document.positions = [[]] ++ document.positions.tail := by
    rw [positions_eq, List.tail_cons, List.singleton_append]
  have hrecords : document.Records [] [[]] := fun _ => rfl
  rw [audit_eq, auditPlaces_eq_flatMap hsplit document.map_placeAt?_positions hrecords]

/-! ## Documents without defects -/

/-- A document without defects. -/
structure Faultless (document : TargetDocument) : Prop where
  /-- No two children of one parent have the same name. -/
  names : ∀ target ∈ document.system :: preorderAll document.targets,
    (target.children.map (·.name)).Nodup
  /-- Every path can be read. -/
  paths : ∀ target ∈ preorderAll document.targets, ∀ text, target.physicalPath = some text →
    ∃ path, HexPath.parse text = .ok path
  /-- No path stands twice, in whatever spelling. -/
  unique : (decodedPaths document.targets).Nodup

theorem mem_tail_positions_iff :
    position ∈ document.positions.tail ↔
      position ≠ [] ∧ ∃ target, document.system.at? position = some target := by
  have hdrop : document.system.children.drop 0 = document.targets := List.drop_zero
  rw [positions_eq, List.tail_cons, mem_positionsFrom hdrop, Option.isSome_iff_exists]
  cases position with
  | nil => simp
  | cons number rest => simp

/-- The positions lead to the targets in the order of a walk from the top. -/
theorem map_at?_positions (document : TargetDocument) :
    document.positions.tail.map document.system.at?
      = (preorderAll document.targets).map some := by
  rw [positions_eq, List.tail_cons]
  exact map_at?_positionsFrom List.drop_zero

theorem mem_preorderAll_iff {target : TargetSpec} :
    target ∈ preorderAll document.targets ↔
      ∃ position ∈ document.positions.tail, document.system.at? position = some target := by
  rw [← List.mem_map, map_at?_positions, List.mem_map]
  simp

/-- The system and the targets of a document are what its positions lead to. -/
theorem mem_system_preorderAll_iff {target : TargetSpec} :
    target ∈ document.system :: preorderAll document.targets ↔
      ∃ position, document.system.at? position = some target := by
  rw [List.mem_cons, mem_preorderAll_iff]
  constructor
  · intro h
    rcases h with rfl | ⟨position, -, hposition⟩
    · exact ⟨[], rfl⟩
    · exact ⟨position, hposition⟩
  · intro ⟨position, hposition⟩
    by_cases hroot : position = []
    · rw [hroot, at?_nil, Option.some.injEq] at hposition
      exact .inl hposition.symm
    · exact .inr ⟨position, mem_tail_positions_iff.mpr ⟨hroot, target, hposition⟩, hposition⟩

theorem issuesAt_eq_nil_iff {target : TargetSpec}
    (h : document.system.at? position = some target) :
    document.issuesAt position = [] ↔
      document.system.nameTaken position = false ∧
        ∀ text, target.physicalPath = some text →
          ∃ path, HexPath.parse text = .ok path ∧ document.firstOwner? position path = none := by
  simp only [issuesAt, h, List.append_eq_nil_iff, ite_eq_right_iff, List.cons_ne_nil, imp_false,
    Bool.not_eq_true]
  apply and_congr_right
  intro _
  cases target.physicalPath with
  | none => simp
  | some text =>
    cases hparse : HexPath.parse text with
    | error fault => simp [hparse]
    | ok path => cases hfirst : document.firstOwner? position path <;> simp [hparse, hfirst]

theorem name?_concat {target : TargetSpec} {above : TargetPosition}
    (h : document.system.at? above = some target) (number : Nat) :
    document.system.name? (above ++ [number]) = target.children[number]?.map (·.name) := by
  simp [name?, at?_append, h, at?_cons]

/-- No name is taken exactly when the children of every parent have different names. -/
theorem forall_nameTaken_iff (document : TargetDocument) :
    (∀ position ∈ document.positions.tail, document.system.nameTaken position = false) ↔
      ∀ target ∈ document.system :: preorderAll document.targets,
        (target.children.map (·.name)).Nodup := by
  constructor
  · intro h target htarget
    obtain ⟨above, habove⟩ := mem_system_preorderAll_iff.mp htarget
    rw [List.nodup_iff_getElem?_ne_getElem?]
    intro earlier number hlt hnumber hsame
    rw [List.getElem?_map, List.getElem?_map] at hsame
    rw [List.length_map] at hnumber
    have hposition : above ++ [number] ∈ document.positions.tail := by
      refine mem_tail_positions_iff.mpr ⟨by simp, target.children[number], ?_⟩
      simp [at?_append, habove, at?_cons, List.getElem?_eq_getElem hnumber]
    have htaken : document.system.nameTaken (above ++ [number]) = true := by
      rw [nameTaken_concat_iff]
      exact ⟨earlier, hlt, by rw [name?_concat habove, name?_concat habove, hsame]⟩
    rw [h _ hposition] at htaken
    cases htaken
  · intro h position hposition
    obtain ⟨hne, child, hchild⟩ := mem_tail_positions_iff.mp hposition
    obtain ⟨above, number, rfl⟩ := (List.eq_nil_or_concat position).resolve_left hne
    rw [List.concat_eq_append] at hchild ⊢
    rw [at?_append, Option.bind_eq_some_iff] at hchild
    obtain ⟨target, habove, hchild⟩ := hchild
    rw [at?_cons, Option.bind_eq_some_iff] at hchild
    obtain ⟨other, hnumber, -⟩ := hchild
    rw [← Bool.not_eq_true, nameTaken_concat_iff]
    intro ⟨earlier, hlt, hsame⟩
    rw [name?_concat habove, name?_concat habove, ← List.getElem?_map, ← List.getElem?_map]
      at hsame
    have hnodup := h target (mem_system_preorderAll_iff.mpr ⟨above, habove⟩)
    have hlength : number < (target.children.map (·.name)).length := by
      rw [List.length_map]
      exact (List.getElem?_eq_some_iff.mp hnumber).1
    exact List.nodup_iff_getElem?_ne_getElem?.mp hnodup earlier number hlt hlength hsame

theorem path?_eq_some_iff {path : Bytes} :
    document.path? position = some path ↔
      ∃ target text, document.system.at? position = some target ∧
        target.physicalPath = some text ∧ HexPath.parse text = .ok path := by
  simp [path?, Option.bind_eq_some_iff, Outcome.toOption_eq_some_iff]

theorem filterMap_path?_positions (document : TargetDocument) :
    document.positions.tail.filterMap document.path? = decodedPaths document.targets := by
  have hpath : document.path? = (fun target? : Option TargetSpec => target?.bind fun target =>
      target.physicalPath.bind fun text => (HexPath.parse text).toOption)
        ∘ document.system.at? := rfl
  rw [hpath, ← List.filterMap_map, map_at?_positions, List.filterMap_map]
  rfl

/-- No path has an earlier owner exactly when all decoded paths are different. -/
theorem forall_firstOwner?_iff (document : TargetDocument) :
    (∀ position ∈ document.positions.tail, ∀ path, document.path? position = some path →
        document.firstOwner? position path = none) ↔
      (decodedPaths document.targets).Nodup := by
  have hordered : document.positions.tail.Pairwise (· < ·) :=
    (pairwise_positions document.system).tail
  rw [← filterMap_path?_positions, List.Nodup, List.pairwise_filterMap]
  constructor
  · intro h
    refine hordered.imp_of_mem ?_
    intro earlier position _ hposition hlt path hearlier other hother hsame
    have hfree := List.find?_eq_none.mp (h position hposition other hother) earlier
      (mem_positions_of_path? hearlier)
    exact hfree (by simp [hlt, hearlier, hsame])
  · intro h position hposition path hpath
    obtain ⟨front, back, hsplit⟩ := List.append_of_mem hposition
    rw [hsplit, List.pairwise_append] at h
    have hwhole : document.positions = ([] :: front) ++ position :: back := by
      rw [List.cons_append, ← hsplit, positions_eq, List.tail_cons]
    rw [firstOwner?_eq hwhole, List.find?_eq_none]
    intro earlier hearlier hsame
    rw [decide_eq_true_eq] at hsame
    rcases List.mem_cons.mp hearlier with rfl | hearlier
    · cases hsame
    · exact h.2.2 earlier hearlier position (by simp) path hsame path hpath rfl

/-- An audit lists nothing exactly when the document is without defects. -/
theorem audit_eq_nil_iff (document : TargetDocument) :
    document.audit = [] ↔ document.Faultless := by
  rw [audit_eq_flatMap, List.flatMap_eq_nil_iff]
  constructor
  · intro h
    refine ⟨(forall_nameTaken_iff document).mp ?_, ?_, (forall_firstOwner?_iff document).mp ?_⟩
    · intro position hposition
      obtain ⟨-, target, htarget⟩ := mem_tail_positions_iff.mp hposition
      exact ((issuesAt_eq_nil_iff htarget).mp (h position hposition)).1
    · intro target htarget text htext
      obtain ⟨position, hposition, hat⟩ := mem_preorderAll_iff.mp htarget
      obtain ⟨path, hparse, -⟩ :=
        ((issuesAt_eq_nil_iff hat).mp (h position hposition)).2 text htext
      exact ⟨path, hparse⟩
    · intro position hposition path hpath
      obtain ⟨target, text, hat, htext, hparse⟩ := path?_eq_some_iff.mp hpath
      obtain ⟨other, hother, hnone⟩ :=
        ((issuesAt_eq_nil_iff hat).mp (h position hposition)).2 text htext
      cases hparse.symm.trans hother
      exact hnone
  · intro h position hposition
    obtain ⟨-, target, hat⟩ := mem_tail_positions_iff.mp hposition
    refine (issuesAt_eq_nil_iff hat).mpr
      ⟨(forall_nameTaken_iff document).mpr h.names position hposition, fun text htext => ?_⟩
    obtain ⟨path, hparse⟩ :=
      h.paths target (mem_preorderAll_iff.mpr ⟨position, hposition, hat⟩) text htext
    exact ⟨path, hparse, (forall_firstOwner?_iff document).mpr h.unique position hposition path
      (path?_eq_some_iff.mpr ⟨target, text, hat, htext, hparse⟩)⟩

/-- What an audit lists, told by positions alone. -/
structure ListsDefects (document : TargetDocument) : Prop where
  /-- The positions behind that of the system are those of the targets, in the order of a walk from
  the top, and that is their lexicographic order. -/
  walk : document.positions.tail.map document.system.at?
      = (preorderAll document.targets).map some ∧
    document.positions.Pairwise (· < ·)
  /-- The list is that of the issues at each of them, and nothing else. -/
  issues : document.audit = document.positions.tail.flatMap document.issuesAt
  /-- The texts of the list, each with its target, are those reported at each of them. -/
  reports : document.audit.map (fun issue => (issue.names, issue.defect.message))
    = document.positions.tail.flatMap document.reportsAt
  /-- An issue is printed as its target and its text. -/
  lines : document.audit.map (·.text)
    = (document.positions.tail.flatMap document.reportsAt).map fun report =>
      report.1 ++ ": " ++ report.2
  /-- The reason that stands behind a path which cannot be read is what is wrong with its digits. -/
  reason : ∀ text fault, HexPath.parse text = .error fault →
    ∃ front digits, HexPath.Cut text.toList front digits ∧ HexPath.Wrong digits fault.message
  /-- A name is taken when an earlier child of the same parent has it. -/
  name : ∀ above number, document.system.nameTaken (above ++ [number]) = true ↔
    ∃ earlier < number,
      document.system.name? (above ++ [earlier]) = document.system.name? (above ++ [number])
  /-- The owner of a path is the first target at all that has it, if that one comes before. -/
  owner : ∀ position owner path, document.firstOwner? position path = some owner ↔
    owner < position ∧ document.path? owner = some path ∧
      ∀ earlier < owner, document.path? earlier ≠ some path
  /-- The list is empty exactly when siblings have different names, all paths can be read and no
  path stands twice. -/
  clean : document.audit = [] ↔ document.Faultless

theorem map_message_audit (document : TargetDocument) :
    document.audit.map (fun issue => (issue.names, issue.defect.message))
      = document.positions.tail.flatMap document.reportsAt := by
  rw [audit_eq_flatMap, List.map_flatMap]
  exact List.flatMap_congr fun position _ => (document.reportsAt_eq position).symm

/-- An audit lists the defects of a document, each once. -/
theorem audit_lists_defects (document : TargetDocument) : document.ListsDefects where
  walk := ⟨document.map_at?_positions, pairwise_positions document.system⟩
  issues := document.audit_eq_flatMap
  reports := document.map_message_audit
  lines := by
    rw [← map_message_audit, List.map_map]
    rfl
  reason := by
    intro text fault hparse
    obtain ⟨front, hcut⟩ := HexPath.exists_cut text.toList
    exact ⟨front, _, hcut, HexPath.wrong_of_parse hparse⟩
  name := document.system.nameTaken_concat_iff
  owner := document.firstOwner?_eq_some_iff
  clean := document.audit_eq_nil_iff

/-- The path of the deepest target is met again twice, and the owner is the deepest one both times.
Its name is taken only where a sibling has it. -/
example :
    (audit {
      targets := [
        { name := "a", children := [{ name := "a", physicalPath := some "0xAB" }] },
        { name := "b", physicalPath := some "ab" },
        { name := "a", physicalPath := some "aB" },
        { name := "c", physicalPath := some "0xabc" }] }).map (·.text)
      = ["/b: physical path ab already used by /a/a", "/a: duplicate sibling name",
        "/a: physical path aB already used by /a/a",
        "/c: invalid physical path '0xabc': odd number of hex digits (3)"] := by
  decide +kernel

end TargetDocument

end FirstFailure
