import FirstFailure.Proofs.Target.Numbering
import Mathlib.Data.List.Infix
/-!
# Locations are inherited

A target without a location code is where the nearest target around it is that has one, and at last
where the system is. The tree finds this out on the way up, from parent to parent; in the document a
code is passed down to all that is inside. Both agree, since the parent of a handle is the handle of
the enclosing target. So nothing but the codes on the way decides: neither siblings nor what is
below them, nor the children of the target itself.
-/

namespace FirstFailure

namespace TargetSpec

/-! ## On the way down -/

/-- The location code of the target at a position. A target passes on its own code to those below
it, or else the one that was passed on to it. -/
def codeAt (inherited : Option String) (target : TargetSpec) : TargetPosition → Option String
  | [] => target.locationCode.or inherited
  | number :: rest =>
    target.children[number]?.bind fun child => child.codeAt (target.locationCode.or inherited) rest

/-- What a target has and what it inherits from the target that encloses it. -/
theorem codeAt_concat (inherited : Option String) (target : TargetSpec) (above : TargetPosition)
    (number : Nat) :
    target.codeAt inherited (above ++ [number])
      = (target.at? (above ++ [number])).bind fun below =>
        below.locationCode.or (target.codeAt inherited above) := by
  induction above generalizing inherited target with
  | nil =>
    simp only [List.nil_append, codeAt, at?_cons, at?_nil]
    cases target.children[number]? <;> rfl
  | cons first rest ih =>
    simp only [List.cons_append, codeAt, at?_cons]
    cases target.children[first]? with
    | none => rfl
    | some child => exact ih _ child

/-- Two targets reached through targets of the same location codes. Their numbers among the children
may differ, and so may all other children on the way, what is below these, and what is below the two
targets themselves. -/
inductive SameWay : TargetSpec → TargetPosition → TargetSpec → TargetPosition → Prop where
  | here {target other : TargetSpec} (code : target.locationCode = other.locationCode) :
      SameWay target [] other []
  | inside {target other child otherChild : TargetSpec} {number otherNumber : Nat}
      {position otherPosition : TargetPosition} (code : target.locationCode = other.locationCode)
      (at_number : target.children[number]? = some child)
      (at_otherNumber : other.children[otherNumber]? = some otherChild)
      (rest : SameWay child position otherChild otherPosition) :
      SameWay target (number :: position) other (otherNumber :: otherPosition)

theorem SameWay.codeAt_eq {target other : TargetSpec} {position otherPosition : TargetPosition}
    (h : SameWay target position other otherPosition) (inherited : Option String) :
    target.codeAt inherited position = other.codeAt inherited otherPosition := by
  induction h generalizing inherited with
  | here code => simp only [codeAt, code]
  | inside code hnumber hother _ ih =>
    simp only [codeAt, code, hnumber, hother, Option.bind_some, ih]

end TargetSpec

namespace TargetDocument

open TargetSpec

variable {document : TargetDocument}

/-- The location code that stands at a position. -/
def code? (document : TargetDocument) (position : TargetPosition) : Option String :=
  (document.system.at? position).bind (·.locationCode)

/-- The location code of the target at a position, its own or inherited. -/
def locationCode? (document : TargetDocument) (position : TargetPosition) : Option String :=
  document.system.codeAt none position

/-- The nearest position on the way that has a location code. -/
def NearestCode (document : TargetDocument) (position : TargetPosition) (code : String) : Prop :=
  ∃ nearest, nearest <+: position ∧ document.code? nearest = some code ∧
    ∀ closer, closer <+: position → nearest.length < closer.length → document.code? closer = none

theorem locationCode?_nil (document : TargetDocument) :
    document.locationCode? [] = document.locationCode :=
  Option.or_none

theorem locationCode?_concat {above : TargetPosition} {number : Nat} {target : TargetSpec}
    (h : document.system.at? (above ++ [number]) = some target) :
    document.locationCode? (above ++ [number])
      = target.locationCode.or (document.locationCode? above) := by
  rw [locationCode?, codeAt_concat, h]
  rfl

theorem code?_of_at? {position : TargetPosition} {target : TargetSpec}
    (h : document.system.at? position = some target) :
    document.code? position = target.locationCode := by
  rw [code?, h, Option.bind_some]

/-- What encloses a target is one too. -/
theorem exists_enclosing {above : TargetPosition} {number : Nat} {target : TargetSpec}
    (h : document.system.at? (above ++ [number]) = some target) :
    ∃ enclosing, document.system.at? above = some enclosing := by
  rw [at?_append, Option.bind_eq_some_iff] at h
  obtain ⟨enclosing, habove, -⟩ := h
  exact ⟨enclosing, habove⟩

theorem locationCode?_eq_some_iff {position : TargetPosition} {target : TargetSpec}
    (h : document.system.at? position = some target) (code : String) :
    document.locationCode? position = some code ↔ document.NearestCode position code := by
  induction position using List.reverseRecOn generalizing target with
  | nil =>
    have hsystem : document.code? [] = document.locationCode := rfl
    rw [locationCode?_nil, ← hsystem]
    constructor
    · intro hcode
      exact ⟨[], List.prefix_rfl, hcode, fun closer hcloser hlonger => by
        simp [List.prefix_nil.mp hcloser] at hlonger⟩
    · intro ⟨nearest, hnearest, hcode, _⟩
      rwa [List.prefix_nil.mp hnearest] at hcode
  | append_singleton above number ih =>
    obtain ⟨enclosing, habove⟩ := exists_enclosing h
    have hcode? := code?_of_at? h
    rw [locationCode?_concat h, ← hcode?]
    cases hown : document.code? (above ++ [number]) with
    | some own =>
      rw [Option.some_or, Option.some.injEq]
      constructor
      · rintro rfl
        refine ⟨_, List.prefix_rfl, hown, fun closer hcloser hlonger => ?_⟩
        exact absurd hcloser.length_le (Nat.not_le_of_gt hlonger)
      · intro ⟨nearest, hnearest, hcode, hcloser⟩
        rcases List.prefix_concat_iff.mp hnearest with rfl | hnearest
        · rwa [hown, Option.some.injEq] at hcode
        · -- The target itself would be closer.
          have hlonger : nearest.length < (above ++ [number]).length := by
            rw [List.length_append]
            exact Nat.lt_succ_of_le hnearest.length_le
          rw [hcloser _ List.prefix_rfl hlonger] at hown
          cases hown
    | none =>
      rw [Option.none_or, ih habove]
      constructor
      · intro ⟨nearest, hnearest, hcode, hcloser⟩
        refine ⟨nearest, hnearest.trans (List.prefix_append _ _), hcode, fun closer hway => ?_⟩
        rcases List.prefix_concat_iff.mp hway with rfl | hway
        · exact fun _ => hown
        · exact hcloser closer hway
      · intro ⟨nearest, hnearest, hcode, hcloser⟩
        rcases List.prefix_concat_iff.mp hnearest with rfl | hnearest
        · rw [hown] at hcode
          cases hcode
        · exact ⟨nearest, hnearest, hcode, fun closer hway =>
            hcloser closer (hway.trans (List.prefix_append _ _))⟩

theorem locationCode?_eq_none_iff {position : TargetPosition} {target : TargetSpec}
    (h : document.system.at? position = some target) :
    document.locationCode? position = none ↔
      ∀ above, above <+: position → document.code? above = none := by
  induction position using List.reverseRecOn generalizing target with
  | nil =>
    have hsystem : document.code? [] = document.locationCode := rfl
    simp [locationCode?_nil, List.prefix_nil, hsystem]
  | append_singleton above number ih =>
    obtain ⟨enclosing, habove⟩ := exists_enclosing h
    rw [locationCode?_concat h, Option.or_eq_none_iff, ih habove, ← code?_of_at? h]
    constructor
    · intro ⟨hown, hothers⟩ other hother
      rcases List.prefix_concat_iff.mp hother with rfl | hother
      · exact hown
      · exact hothers other hother
    · intro hall
      exact ⟨hall _ List.prefix_rfl, fun other hother =>
        hall other (hother.trans (List.prefix_append _ _))⟩

end TargetDocument

namespace TargetTree

open TargetSpec

/-! ## On the way up -/

/-- A climb without a bound: it stops at a location code, above the root, and outside the tree. -/
inductive Climbs (tree : TargetTree) : (handle : Option Nat) → (code : Option String) → Prop where
  | top : Climbs tree none none
  | outside {handle : Nat} (missing : tree.node? handle = none) : Climbs tree (some handle) none
  | found {handle : Nat} {node : TargetNode} {code : String}
      (present : tree.node? handle = some node) (own : node.locationCode = some code) :
      Climbs tree (some handle) (some code)
  | up {handle : Nat} {node : TargetNode} {code : Option String}
      (present : tree.node? handle = some node) (own : node.locationCode = none)
      (rest : Climbs tree node.parent code) : Climbs tree (some handle) code

/-- A climb has one result. -/
theorem Climbs.unique {tree : TargetTree} {handle : Option Nat} {code other : Option String}
    (h : Climbs tree handle code) (h' : Climbs tree handle other) : code = other := by
  induction h with
  | top =>
    cases h'
    rfl
  | outside missing =>
    cases h' with
    | outside => rfl
    | found present => cases missing.symm.trans present
    | up present => cases missing.symm.trans present
  | found present own =>
    cases h' with
    | outside missing => cases missing.symm.trans present
    | found present' own' =>
      cases present.symm.trans present'
      exact own.symm.trans own'
    | up present' own' =>
      cases present.symm.trans present'
      cases own.symm.trans own'
  | up present own _ ih =>
    cases h' with
    | outside missing => cases missing.symm.trans present
    | found present' own' =>
      cases present.symm.trans present'
      cases own.symm.trans own'
    | up present' _ rest =>
      cases present.symm.trans present'
      exact ih rest

section

variable {tree : TargetTree} {handle parent : Nat} {node : TargetNode}

theorem locationCode_of_missing (h : tree.node? handle = none) :
    tree.locationCode handle = none := by
  rw [locationCode, h]

theorem locationCode_of_root (h : tree.node? handle = some node) (hparent : node.parent = none) :
    tree.locationCode handle = node.locationCode := by
  rw [locationCode, h]
  cases hown : node.locationCode <;> simp [hown, hparent]

theorem locationCode_of_parent (h : tree.node? handle = some node)
    (hparent : node.parent = some parent) (hlt : parent < handle) :
    tree.locationCode handle = node.locationCode.or (tree.locationCode parent) := by
  rw [locationCode, h]
  cases hown : node.locationCode <;> simp [hown, hparent, hlt]

end

section

variable {document : TargetDocument} {tree : TargetTree} (h : ofDocument document = .ok tree)
include h

/-- A handle is that of the system, or its parent is the smaller handle of the enclosing target. -/
theorem node?_of_position {handle : Nat} {position : TargetPosition}
    (hposition : document.positions[handle]? = some position) :
    ∃ target node, document.system.at? position = some target ∧ tree.node? handle = some node ∧
      node.locationCode = target.locationCode ∧
      (position = [] ∧ node.parent = none ∨
        ∃ above number parent, position = above ++ [number] ∧ node.parent = some parent ∧
          parent < handle ∧ document.positions[parent]? = some above) := by
  obtain ⟨target, hstands, henclosed⟩ := stands_of_position h hposition
  obtain ⟨node, hnode, hrepresents, -⟩ := hstands.node
  refine ⟨target, node, hstands.at_position, hnode, hrepresents.locationCode, ?_⟩
  have hroot : document.positions[0]? = some [] := by rw [TargetDocument.positions_eq]; rfl
  by_cases hhandle : handle = 0
  · obtain ⟨nodes, -, rfl⟩ := ofDocument_eq_ok_iff.mp h
    subst hhandle
    cases hroot.symm.trans hposition
    cases hnode
    exact .inl ⟨rfl, rfl⟩
  · obtain ⟨parent, hlt, hparent, habove⟩ := henclosed hhandle
    have hne : position ≠ [] := by
      rintro rfl
      have hlength := (List.getElem?_eq_some_iff.mp hposition).1
      exact hhandle ((List.getElem?_inj hlength (nodup_positions document.system)).mp
        (hposition.trans hroot.symm))
    obtain ⟨above, number, rfl⟩ := (List.eq_nil_or_concat position).resolve_left hne
    rw [List.concat_eq_append, List.dropLast_concat] at habove
    rw [parent?, hnode, Option.bind_some] at hparent
    exact .inr ⟨above, number, parent, List.concat_eq_append, hparent, hlt, habove⟩

/-- The climb from a handle finds what the document passes down to its position. -/
theorem locationCode_eq {handle : Nat} {position : TargetPosition}
    (hposition : document.positions[handle]? = some position) :
    tree.locationCode handle = document.locationCode? position := by
  induction handle using Nat.strongRecOn generalizing position with
  | ind handle ih =>
    obtain ⟨target, node, htarget, hnode, hcode, hparent⟩ := node?_of_position h hposition
    rcases hparent with ⟨rfl, hnone⟩ | ⟨above, number, parent, rfl, hparent, hlt, habove⟩
    · cases htarget
      rw [locationCode_of_root hnode hnone, TargetDocument.locationCode?_nil, hcode]
      rfl
    · rw [locationCode_of_parent hnode hparent hlt, TargetDocument.locationCode?_concat htarget,
        ih parent hlt habove, hcode]

/-- The climb ends, from every handle. -/
theorem climbs_locationCode (handle : Nat) :
    Climbs tree (some handle) (tree.locationCode handle) := by
  induction handle using Nat.strongRecOn with
  | ind handle ih =>
    cases hnode : tree.node? handle with
    | none =>
      rw [locationCode_of_missing hnode]
      exact .outside hnode
    | some node =>
      obtain ⟨position, hposition⟩ : ∃ position, document.positions[handle]? = some position := by
        obtain ⟨position, target, hstands, -⟩ :=
          exists_stands h (List.getElem?_eq_some_iff.mp hnode).1
        exact ⟨position, hstands.at_handle⟩
      obtain ⟨target, node', -, hnode', -, hparent⟩ := node?_of_position h hposition
      cases hnode.symm.trans hnode'
      rcases hparent with ⟨-, hnone⟩ | ⟨-, -, parent, -, hparent, hlt, -⟩
      · rw [locationCode_of_root hnode hnone]
        cases hown : node.locationCode with
        | some code => exact .found hnode hown
        | none => exact .up hnode hown (by rw [hnone]; exact .top)
      · rw [locationCode_of_parent hnode hparent hlt]
        cases hown : node.locationCode with
        | some code => exact .found hnode hown
        | none => exact .up hnode hown (by rw [hparent]; exact ih parent hlt)

end

/-- The location codes that a tree finds are those of its document. -/
structure InheritsLocations (document : TargetDocument) (tree : TargetTree) : Prop where
  /-- The handles in the tree are the numbers of the positions in the document. -/
  handles : document.positions.length = tree.nodes.length
  /-- From every handle the climb ends, with the code that is found. -/
  climb : ∀ handle code, Climbs tree (some handle) code ↔ tree.locationCode handle = code
  /-- Found is the nearest code on the way from the target to the system. -/
  nearest : ∀ handle position, document.positions[handle]? = some position → ∀ code,
    tree.locationCode handle = some code ↔ document.NearestCode position code
  /-- Nothing is found exactly when there is no code on the way. -/
  missing : ∀ handle position, document.positions[handle]? = some position →
    (tree.locationCode handle = none ↔ ∀ above, above <+: position → document.code? above = none)
  /-- Nothing is found outside of the tree. -/
  outside : ∀ handle, tree.nodes.length ≤ handle → tree.locationCode handle = none
  /-- In another document the same is found for a target that is reached in the same way, whatever
  else is different there. -/
  unchanged : ∀ other otherTree, ofDocument other = .ok otherTree →
    ∀ handle position otherHandle otherPosition,
      document.positions[handle]? = some position →
      other.positions[otherHandle]? = some otherPosition →
      SameWay document.system position other.system otherPosition →
      otherTree.locationCode otherHandle = tree.locationCode handle

/-- A target without a location code inherits that of the nearest target around it. -/
theorem inherits_locations {document : TargetDocument} {tree : TargetTree}
    (h : ofDocument document = .ok tree) : InheritsLocations document tree where
  handles := length_positions_of_document h
  climb := by
    intro handle code
    constructor
    · intro hclimb
      exact (climbs_locationCode h handle).unique hclimb
    · rintro rfl
      exact climbs_locationCode h handle
  nearest := by
    intro handle position hposition code
    obtain ⟨target, -, htarget, -⟩ := node?_of_position h hposition
    rw [locationCode_eq h hposition, TargetDocument.locationCode?_eq_some_iff htarget]
  missing := by
    intro handle position hposition
    obtain ⟨target, -, htarget, -⟩ := node?_of_position h hposition
    rw [locationCode_eq h hposition, TargetDocument.locationCode?_eq_none_iff htarget]
  outside := by
    intro handle hhandle
    exact locationCode_of_missing (List.getElem?_eq_none hhandle)
  unchanged := by
    intro other otherTree hother handle position otherHandle otherPosition hposition hposition' hway
    rw [locationCode_eq h hposition, locationCode_eq hother hposition']
    exact (hway.codeAt_eq none).symm

/-- A core without a location code, in a chip without one, in a node that has one. -/
def locatedTargets : TargetDocument where
  locationCode := some "U1"
  targets := [
    { name := "node", locationCode := some "U1-P1", children := [
      { name := "chip", children := [{ name := "core" }] }] },
    { name := "fan" }]

/-- The same core with other siblings at every level and with something below it. -/
def crowdedTargets : TargetDocument where
  locationCode := some "U1"
  targets := [
    { name := "riser", locationCode := some "U9", children := [{ name := "card" }] },
    { name := "node", locationCode := some "U1-P1", children := [
      { name := "dimm", locationCode := some "U1-P1-D1" },
      { name := "chip", children := [
        { name := "core", children := [{ name := "thread", locationCode := some "U2" }] }] }] }]

/-- The core is found in its node in both documents, though under different handles; the fan is
found where the system is. -/
theorem inherits_locations_crowded :
    ∃ tree otherTree, ofDocument locatedTargets = .ok tree ∧
      ofDocument crowdedTargets = .ok otherTree ∧ InheritsLocations locatedTargets tree ∧
      tree.locationCode 3 = some "U1-P1" ∧ otherTree.locationCode 6 = some "U1-P1" ∧
      tree.locationCode 4 = some "U1" ∧ tree.locationCode 5 = none := by
  have hok : (ofDocument locatedTargets).toOption.isSome = true := by decide +kernel
  have hok' : (ofDocument crowdedTargets).toOption.isSome = true := by decide +kernel
  obtain ⟨tree, hsome⟩ := Option.isSome_iff_exists.mp hok
  obtain ⟨otherTree, hsome'⟩ := Option.isSome_iff_exists.mp hok'
  have htree := Outcome.toOption_eq_some_iff.mp hsome
  have hother := Outcome.toOption_eq_some_iff.mp hsome'
  have hinherits := inherits_locations htree
  have hcore : locatedTargets.positions[3]? = some [0, 0, 0] := by decide +kernel
  have hcore' : crowdedTargets.positions[6]? = some [1, 1, 0] := by decide +kernel
  have hfan : locatedTargets.positions[4]? = some [1] := by decide +kernel
  have hway : SameWay locatedTargets.system [0, 0, 0] crowdedTargets.system [1, 1, 0] :=
    .inside rfl rfl rfl (.inside rfl rfl rfl (.inside rfl rfl rfl (.here rfl)))
  have hnode : tree.locationCode 3 = some "U1-P1" := by
    refine (hinherits.nearest 3 _ hcore _).mpr ⟨[0], by decide, by decide +kernel, ?_⟩
    intro closer habove hlonger
    have hmem := (List.mem_inits _ _).mpr habove
    simp only [List.inits, List.map, List.mem_cons, List.not_mem_nil, or_false] at hmem
    rcases hmem with rfl | rfl | rfl | rfl
    · cases hlonger
    · exact absurd hlonger (by decide)
    · rfl
    · rfl
  have hsystem : tree.locationCode 4 = some "U1" := by
    refine (hinherits.nearest 4 _ hfan _).mpr ⟨[], by decide, by decide +kernel, ?_⟩
    intro closer habove hlonger
    have hmem := (List.mem_inits _ _).mpr habove
    simp only [List.inits, List.map, List.mem_cons, List.not_mem_nil, or_false] at hmem
    rcases hmem with rfl | rfl
    · cases hlonger
    · rfl
  refine ⟨tree, otherTree, htree, hother, hinherits, hnode, ?_, hsystem, hinherits.outside 5 ?_⟩
  · rw [hinherits.unchanged _ _ hother 3 _ 6 _ hcore hcore' hway, hnode]
  · rw [← hinherits.handles]
    decide +kernel

end TargetTree

end FirstFailure
