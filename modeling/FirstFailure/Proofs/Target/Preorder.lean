import FirstFailure.Proofs.Target.Layout
import Mathlib.Data.List.Forall2
import Mathlib.Data.List.Range
/-!
# Trees hold the targets of a document in preorder

A tree lays the targets of a document out in a row, and `TargetTree.walk` follows the children from
a stack. Both meet the targets in the order of a walk from the top: the row is the
preorder of the document target by target, and a walk from the root visits the handles one after
another. A search from the root therefore finds the target of the least handle.
-/

namespace FirstFailure

namespace TargetSpec

/-! ## Targets from the top -/

mutual

/-- A target and those below it, each followed by its children. -/
def preorder : TargetSpec → List TargetSpec
  | ⟨name, physicalPath, devicePath, locationCode, unitId, children⟩ =>
    ⟨name, physicalPath, devicePath, locationCode, unitId, children⟩ :: preorderAll children

/-- The targets of subtrees in a row. -/
def preorderAll : List TargetSpec → List TargetSpec
  | [] => []
  | target :: rest => target.preorder ++ preorderAll rest

end

/-- The paths of targets from the top, as far as they have paths and these are readable. -/
def decodedPaths (forest : List TargetSpec) : List Bytes :=
  (preorderAll forest).filterMap fun target =>
    target.physicalPath.bind fun text => (HexPath.parse text).toOption

theorem preorderAll_cons (target : TargetSpec) (rest : List TargetSpec) :
    preorderAll (target :: rest)
      = target :: (preorderAll target.children ++ preorderAll rest) := by
  cases target
  rw [preorderAll, preorder]
  rfl

theorem length_preorderAll (forest : List TargetSpec) :
    (preorderAll forest).length = countAll forest := by
  induction forest using forest_induction with
  | nil => rfl
  | cons target rest hchildren hrest =>
    rw [preorderAll_cons, countAll_cons, List.length_cons, List.length_append, hchildren, hrest]

end TargetSpec

namespace TargetTree

open TargetSpec

/-! ## The row of targets -/

/-- A node that says of a target what the document says, with the path read. -/
structure Represents (target : TargetSpec) (node : TargetNode) : Prop where
  name : node.name = target.name
  physicalPath : physicalPath target.name target.physicalPath = .ok node.physicalPath
  devicePath : node.devicePath = target.devicePath
  locationCode : node.locationCode = target.locationCode
  unitId : node.unitId = target.unitId

/-- The error that the path of a target makes, if it makes one. -/
def pathError? (target : TargetSpec) : Option TreeError :=
  match physicalPath target.name target.physicalPath with
  | .ok _ => none
  | .error error => some error

theorem pathError?_eq_some_iff {target : TargetSpec} {error : TreeError} :
    pathError? target = some error ↔
      target.name = error.target ∧ target.physicalPath = some error.text ∧
        HexPath.parse error.text = .error error.fault := by
  obtain ⟨name, text, fault⟩ := error
  rw [pathError?]
  cases htext : target.physicalPath with
  | none => simp [physicalPath]
  | some own =>
    cases hparse : HexPath.parse own with
    | ok path =>
      simp only [physicalPath, hparse, Option.some.injEq]
      constructor
      · intro h
        cases h
      · rintro ⟨-, rfl, hfault⟩
        cases hparse.symm.trans hfault
    | error e =>
      simp only [physicalPath, hparse, Option.some.injEq, TreeError.mk.injEq]
      constructor
      · rintro ⟨rfl, rfl, rfl⟩
        exact ⟨rfl, rfl, hparse⟩
      · rintro ⟨rfl, rfl, hfault⟩
        cases hparse.symm.trans hfault
        exact ⟨rfl, rfl, rfl⟩

theorem pathError?_eq_none_iff {target : TargetSpec} :
    pathError? target = none ↔
      ∀ text, target.physicalPath = some text → ∃ path, HexPath.parse text = .ok path := by
  rw [pathError?]
  cases target.physicalPath with
  | none => simp [physicalPath]
  | some text => cases hparse : HexPath.parse text <;> simp [physicalPath, hparse]

/-- A row fails with the first path, from the top, that cannot be read. -/
theorem flattenAll_eq_error_iff (parent handle : Nat) {forest : List TargetSpec}
    {error : TreeError} :
    flattenAll parent handle forest = .error error ↔
      (preorderAll forest).findSome? pathError? = some error := by
  induction forest using forest_induction generalizing parent handle error with
  | nil => simp [flattenAll, preorderAll]
  | cons target rest hchildren hrest =>
    rw [flattenAll_cons, preorderAll_cons, List.findSome?_cons, List.findSome?_append, pathError?]
    cases physicalPath target.name target.physicalPath with
    | error e => simp [bind, Except.bind]
    | ok path =>
      cases hbelow : flattenAll handle (handle + 1) target.children with
      | error e =>
        have hfirst : (preorderAll target.children).findSome? pathError? = some e :=
          (hchildren handle (handle + 1)).mp hbelow
        simp [hfirst, bind, Except.bind]
      | ok below =>
        have hnone : (preorderAll target.children).findSome? pathError? = none := by
          rw [Option.eq_none_iff_forall_ne_some]
          intro e he
          rw [← hchildren handle (handle + 1), hbelow] at he
          cases he
        rw [hnone, Option.none_or, ← hrest parent (handle + target.count)]
        cases flattenAll parent (handle + target.count) rest with
        | error e => simp [bind, Except.bind]
        | ok others => simp [bind, Except.bind, pure, Except.pure]

theorem represents_of_flattenAll {parent handle : Nat} {forest : List TargetSpec}
    {nodes : List TargetNode} (h : flattenAll parent handle forest = .ok nodes) :
    List.Forall₂ Represents (preorderAll forest) nodes := by
  induction forest using forest_induction generalizing parent handle nodes with
  | nil =>
    rw [flattenAll] at h
    cases h
    exact .nil
  | cons target rest hchildren hrest =>
    obtain ⟨path, below, others, hpath, hbelow, hothers, rfl⟩ := flattenAll_cons_eq_ok_iff.mp h
    rw [preorderAll_cons]
    exact .cons ⟨rfl, hpath, rfl, rfl, rfl⟩ (List.rel_append (hchildren hbelow) (hrest hothers))

/-- The path of a node is that of the target, as far as it can be read. -/
theorem Represents.decodedPath {target : TargetSpec} {node : TargetNode}
    (h : Represents target node) :
    node.physicalPath
      = target.physicalPath.bind fun text => (HexPath.parse text).toOption := by
  have hread := h.physicalPath
  cases htext : target.physicalPath with
  | none =>
    rw [htext, TargetTree.physicalPath, Except.ok.injEq] at hread
    exact hread.symm
  | some text =>
    rw [htext, TargetTree.physicalPath] at hread
    cases hparse : HexPath.parse text with
    | error e => simp [hparse] at hread
    | ok path =>
      simp only [hparse, Except.ok.injEq] at hread
      simp [← hread, hparse, Except.toOption]

theorem filterMap_physicalPath {targets : List TargetSpec} {nodes : List TargetNode}
    (h : List.Forall₂ Represents targets nodes) :
    nodes.filterMap (·.physicalPath)
      = targets.filterMap fun target =>
        target.physicalPath.bind fun text => (HexPath.parse text).toOption := by
  induction h with
  | nil => rfl
  | @cons target node _ _ hfirst _ ih =>
    rw [List.filterMap_cons, List.filterMap_cons, hfirst.decodedPath, ih]

/-! ## The walk -/

/-- From the handles of targets in a row, a walk goes on to all their handles one after another
before it looks at the rest of the stack. -/
theorem visit_handles {tree : TargetTree} {parent handle : Nat} {forest : List TargetSpec}
    {nodes front back : List TargetNode} (h : flattenAll parent handle forest = .ok nodes)
    (hplace : tree.nodes = front ++ (nodes ++ back)) (hfront : front.length = handle)
    (fuel : Nat) (stack : List Nat) :
    tree.visit (countAll forest + fuel) (handles handle forest ++ stack)
      = List.range' handle (countAll forest) ++ tree.visit fuel stack := by
  induction forest using forest_induction
    generalizing parent handle nodes front back fuel stack with
  | nil => simp [handles, countAll]
  | cons target rest hchildren hrest =>
    obtain ⟨path, below, others, -, hbelow, hothers, rfl⟩ := flattenAll_cons_eq_ok_iff.mp h
    have hnode : tree.node? handle = some (nodeOf target parent handle path) := by
      rw [node?, hplace, ← hfront, List.getElem?_append_right (Nat.le_refl _), Nat.sub_self]
      rfl
    have hlength := length_of_flattenAll hbelow
    have hfuel : countAll (target :: rest) + fuel
        = countAll target.children + (countAll rest + fuel) + 1 := by
      rw [countAll_cons]
      omega
    have hbelowPlace : tree.nodes
        = (front ++ [nodeOf target parent handle path]) ++ (below ++ (others ++ back)) := by
      simp [hplace]
    have hothersPlace : tree.nodes
        = (front ++ nodeOf target parent handle path :: below) ++ (others ++ back) := by
      simp [hplace]
    have hothersFront : (front ++ nodeOf target parent handle path :: below).length
        = handle + target.count := by
      rw [List.length_append, List.length_cons, hlength, count_eq, hfront]
      omega
    have hwalk := hchildren hbelow hbelowPlace (by simp [hfront]) (countAll rest + fuel)
      (handles (handle + target.count) rest ++ stack)
    have hwalk' := hrest hothers hothersPlace hothersFront fuel stack
    rw [handles, hfuel, List.cons_append, visit, hnode]
    show handle :: tree.visit _ (handles (handle + 1) target.children ++ _) = _
    rw [hwalk, hwalk', countAll_cons, List.range'_succ, count_eq]
    simp only [List.cons_append, ← List.append_assoc, ← List.range'_append_1]
    congr 4
    omega

/-! ## Trees of documents -/

theorem ofDocument_eq_error_iff {document : TargetDocument} {error : TreeError} :
    ofDocument document = .error error ↔
      (preorderAll document.targets).findSome? pathError? = some error := by
  rw [← flattenAll_eq_error_iff 0 1, ofDocument_eq]
  cases flattenAll 0 1 document.targets with
  | error e => simp [Except.map]
  | ok nodes => simp [Except.map]

/-- A document describes a tree exactly when all its paths can be read. -/
theorem exists_ofDocument_iff {document : TargetDocument} :
    (∃ tree, ofDocument document = .ok tree) ↔
      ∀ target ∈ preorderAll document.targets, ∀ text, target.physicalPath = some text →
        ∃ path, HexPath.parse text = .ok path := by
  simp only [← pathError?_eq_none_iff]
  rw [← List.findSome?_eq_none_iff, Option.eq_none_iff_forall_ne_some]
  simp only [ne_eq, ← ofDocument_eq_error_iff]
  cases ofDocument document with
  | ok tree => simp
  | error error => simp

theorem walk_root {document : TargetDocument} {tree : TargetTree}
    (h : ofDocument document = .ok tree) : tree.walk 0 = List.range tree.nodes.length := by
  obtain ⟨nodes, hnodes, rfl⟩ := ofDocument_eq_ok_iff.mp h
  have hplace : (TargetTree.mk (rootOf document :: nodes)).nodes
      = [rootOf document] ++ (nodes ++ []) := by simp
  have hwalk := visit_handles hnodes hplace rfl 0 []
  rw [Nat.add_zero, List.append_nil] at hwalk
  rw [walk, List.length_cons, length_of_flattenAll hnodes, visit]
  show 0 :: visit _ _ (handles 1 document.targets ++ []) = _
  rw [List.append_nil, hwalk, List.range_eq_range', List.range'_succ, visit, List.append_nil]

/-- A search from the root finds the least handle with the path. -/
theorem findByPath_root_eq_some_iff {document : TargetDocument} {tree : TargetTree}
    (h : ofDocument document = .ok tree) (path : Bytes) (handle : Nat) :
    tree.findByPath 0 path = some handle ↔
      (tree.node? handle).bind (·.physicalPath) = some path ∧
        ∀ earlier < handle, (tree.node? earlier).bind (·.physicalPath) ≠ some path := by
  rw [findByPath, walk_root h, List.find?_range_eq_some]
  constructor
  · rintro ⟨hpath, -, hearlier⟩
    exact ⟨by simpa using hpath, fun j hj => by simpa using hearlier j hj⟩
  · rintro ⟨hpath, hearlier⟩
    refine ⟨by simpa using hpath, ?_, fun j hj => by simpa using hearlier j hj⟩
    rw [List.mem_range]
    by_contra hout
    rw [node?, List.getElem?_eq_none (by omega)] at hpath
    cases hpath

/-- The targets that have a path are those of the document, in their order. -/
theorem filterMap_nodes {document : TargetDocument} {tree : TargetTree}
    (h : ofDocument document = .ok tree) :
    tree.nodes.filterMap (·.physicalPath) = decodedPaths document.targets := by
  obtain ⟨nodes, hnodes, rfl⟩ := ofDocument_eq_ok_iff.mp h
  rw [List.filterMap_cons_none rfl, decodedPaths]
  exact filterMap_physicalPath (represents_of_flattenAll hnodes)

/-- No path is used twice exactly when a search from the root finds every target that has a path. -/
theorem decodedPaths_nodup_iff {document : TargetDocument} {tree : TargetTree}
    (h : ofDocument document = .ok tree) :
    (decodedPaths document.targets).Nodup ↔
      ∀ handle path, (tree.node? handle).bind (·.physicalPath) = some path →
        tree.findByPath 0 path = some handle := by
  rw [← filterMap_nodes h, List.Nodup, List.pairwise_filterMap, List.pairwise_iff_getElem]
  constructor
  · intro hnodup handle path hpath
    rw [findByPath_root_eq_some_iff h]
    refine ⟨hpath, fun earlier hearlier hsame => ?_⟩
    obtain ⟨node, hnode, hown⟩ := Option.bind_eq_some_iff.mp hpath
    obtain ⟨other, hother, hothers⟩ := Option.bind_eq_some_iff.mp hsame
    obtain ⟨hlt, rfl⟩ := List.getElem?_eq_some_iff.mp hnode
    obtain ⟨hlt', rfl⟩ := List.getElem?_eq_some_iff.mp hother
    exact hnodup earlier handle hlt' hlt hearlier path hothers path hown rfl
  · rintro hfind earlier handle hlt' hlt hearlier path hothers _ hown rfl
    have hsame : (tree.node? earlier).bind (·.physicalPath) = some path := by
      rw [node?, List.getElem?_eq_getElem hlt']
      exact hothers
    have hpath : (tree.node? handle).bind (·.physicalPath) = some path := by
      rw [node?, List.getElem?_eq_getElem hlt]
      exact hown
    have hequal : some earlier = some handle :=
      (hfind earlier path hsame).symm.trans (hfind handle path hpath)
    cases hequal
    exact Nat.lt_irrefl _ hearlier

end TargetTree

end FirstFailure
