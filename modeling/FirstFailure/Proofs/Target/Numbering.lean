import FirstFailure.Proofs.Target.Positions
/-!
# Handles number the positions of a document

The handle of a target is the number of its position. A tree is laid out so that every part of it
which holds children in a row, with those below them, stands in one piece; `TargetTree.Holds` says
this of such a part, and it is handed down from a row to the children of its first target and to the
others. So each handle belongs to one position, parents come first, and what is below a target
follows it without a gap. A walk from any target is then a range of handles.
-/

namespace FirstFailure

namespace TargetDocument

/-- Whether a handle is that of a target or of one below it, by their positions. -/
def Below (document : TargetDocument) (top handle : Nat) : Prop :=
  ∃ position below, document.positions[top]? = some position ∧
    document.positions[handle]? = some below ∧ position <+: below

/-- Whether a handle is that of a target with a name. -/
def Named (document : TargetDocument) (name : String) (handle : Nat) : Prop :=
  ∃ position, document.positions[handle]? = some position ∧
    document.system.name? position = some name

/-- Whether a handle is that of a target with a path, in whatever spelling. -/
def HasPath (document : TargetDocument) (path : Bytes) (handle : Nat) : Prop :=
  ∃ position, document.positions[handle]? = some position ∧ document.path? position = some path

end TargetDocument

namespace TargetTree

open TargetSpec

/-- A walk without a bound: the target on top of the stack is visited and its children take its
place, until nothing is left. -/
inductive Walks (tree : TargetTree) : (stack order : List Nat) → Prop where
  | done : Walks tree [] []
  | visit {handle : Nat} {node : TargetNode} {stack order : List Nat}
      (found : tree.node? handle = some node) (rest : Walks tree (node.children ++ stack) order) :
      Walks tree (handle :: stack) (handle :: order)

theorem visit_of_walks {tree : TargetTree} {stack order : List Nat} (h : Walks tree stack order)
    {fuel : Nat} (hfuel : order.length ≤ fuel) : tree.visit fuel stack = order := by
  induction h generalizing fuel with
  | done => cases fuel <;> rfl
  | visit found _ ih =>
    cases fuel with
    | zero => simp at hfuel
    | succ fuel =>
      have hrest := ih (Nat.le_of_succ_le_succ hfuel)
      simp only [visit, found, hrest]

variable {document : TargetDocument} {tree : TargetTree}

/-! ## Parts of a tree -/

/-- From `handle` on, a tree holds the children of the target at the position `above` from `number`
on, and those below them. -/
structure Holds (document : TargetDocument) (tree : TargetTree) (above : TargetPosition)
    (number parent handle : Nat) (forest : List TargetSpec) : Prop where
  laidOut : ∃ nodes before after, flattenAll parent handle forest = .ok nodes ∧
    tree.nodes = before ++ (nodes ++ after) ∧ before.length = handle
  numbered : ∃ before after, document.positions
      = before ++ ((positionsFrom number forest).map (above ++ ·) ++ after) ∧
    before.length = handle
  above_at : document.positions[parent]? = some above
  parent_lt : parent < handle
  children : ∃ owner, document.system.at? above = some owner ∧ owner.children.drop number = forest

/-- A target stands at a handle: its position has that number, the node there is that of the target,
and those below it follow. -/
structure Stands (document : TargetDocument) (tree : TargetTree) (handle : Nat)
    (position : TargetPosition) (target : TargetSpec) : Prop where
  at_handle : document.positions[handle]? = some position
  at_position : document.system.at? position = some target
  node : ∃ node, tree.node? handle = some node ∧ Represents target node ∧
    node.children = handles (handle + 1) target.children
  below : Holds document tree position 0 handle (handle + 1) target.children

/-- The parent of a handle is the handle of the target that encloses its own. -/
def Enclosed (document : TargetDocument) (tree : TargetTree) (handle : Nat)
    (position : TargetPosition) : Prop :=
  ∃ parent < handle, tree.parent? handle = some parent ∧
    document.positions[parent]? = some position.dropLast

theorem Holds.node? {above : TargetPosition} {number parent handle : Nat} {target : TargetSpec}
    {rest : List TargetSpec} (h : Holds document tree above number parent handle (target :: rest)) :
    ∃ path, physicalPath target.name target.physicalPath = .ok path ∧
      tree.node? handle = some (nodeOf target parent handle path) := by
  obtain ⟨nodes, before, after, hflatten, hnodes, hbefore⟩ := h.laidOut
  obtain ⟨path, below, others, hpath, -, -, rfl⟩ := flattenAll_cons_eq_ok_iff.mp hflatten
  refine ⟨path, hpath, ?_⟩
  rw [TargetTree.node?, hnodes, ← hbefore, List.getElem?_append_right (Nat.le_refl _),
    Nat.sub_self]
  rfl

theorem Holds.position {above : TargetPosition} {number parent handle : Nat} {target : TargetSpec}
    {rest : List TargetSpec} (h : Holds document tree above number parent handle (target :: rest)) :
    document.positions[handle]? = some (above ++ [number]) := by
  obtain ⟨before, after, hpositions, hbefore⟩ := h.numbered
  rw [hpositions, positionsFrom_cons, ← hbefore, List.getElem?_append_right (Nat.le_refl _),
    Nat.sub_self]
  rfl

theorem Holds.target {above : TargetPosition} {number parent handle : Nat} {target : TargetSpec}
    {rest : List TargetSpec} (h : Holds document tree above number parent handle (target :: rest)) :
    document.system.at? (above ++ [number]) = some target := by
  obtain ⟨owner, howner, hchildren⟩ := h.children
  rw [at?_append, howner, Option.bind_some, at?_cons, (children_of_drop hchildren).1]
  rfl

/-- A part that holds targets in a row holds the children of the first behind it. -/
theorem Holds.below {above : TargetPosition} {number parent handle : Nat} {target : TargetSpec}
    {rest : List TargetSpec} (h : Holds document tree above number parent handle (target :: rest)) :
    Holds document tree (above ++ [number]) 0 handle (handle + 1) target.children where
  laidOut := by
    obtain ⟨nodes, before, after, hflatten, hnodes, hbefore⟩ := h.laidOut
    obtain ⟨path, below, others, -, hbelow, -, rfl⟩ := flattenAll_cons_eq_ok_iff.mp hflatten
    refine ⟨below, before ++ [nodeOf target parent handle path], others ++ after, hbelow, ?_, ?_⟩
    · simp [hnodes]
    · simp [hbefore]
  numbered := by
    obtain ⟨before, after, hpositions, hbefore⟩ := h.numbered
    refine ⟨before ++ [above ++ [number]],
      (positionsFrom (number + 1) rest).map (above ++ ·) ++ after, ?_, ?_⟩
    · simp [hpositions, positionsFrom_cons, Function.comp_def]
    · simp [hbefore]
  above_at := h.position
  parent_lt := Nat.lt_succ_self handle
  children := ⟨target, h.target, List.drop_zero⟩

/-- It holds the others behind those. -/
theorem Holds.rest {above : TargetPosition} {number parent handle : Nat} {target : TargetSpec}
    {rest : List TargetSpec} (h : Holds document tree above number parent handle (target :: rest)) :
    Holds document tree above (number + 1) parent (handle + target.count) rest where
  laidOut := by
    obtain ⟨nodes, before, after, hflatten, hnodes, hbefore⟩ := h.laidOut
    obtain ⟨path, below, others, -, hbelow, hothers, rfl⟩ := flattenAll_cons_eq_ok_iff.mp hflatten
    have hlength := length_of_flattenAll hbelow
    refine ⟨others, before ++ nodeOf target parent handle path :: below, after, hothers, ?_, ?_⟩
    · simp [hnodes]
    · rw [List.length_append, List.length_cons, hlength, hbefore, count_eq]
      omega
  numbered := by
    obtain ⟨before, after, hpositions, hbefore⟩ := h.numbered
    refine ⟨before ++ target.positions.map (above ++ number :: ·), after, ?_, ?_⟩
    · simp [hpositions, positionsFrom, Function.comp_def]
    · rw [List.length_append, List.length_map, length_positions, hbefore]
  above_at := h.above_at
  parent_lt := Nat.lt_of_lt_of_le h.parent_lt (Nat.le_add_right _ _)
  children := by
    obtain ⟨owner, howner, hchildren⟩ := h.children
    exact ⟨owner, howner, (children_of_drop hchildren).2⟩

theorem Holds.stands {above : TargetPosition} {number parent handle : Nat} {target : TargetSpec}
    {rest : List TargetSpec} (h : Holds document tree above number parent handle (target :: rest)) :
    Stands document tree handle (above ++ [number]) target where
  at_handle := h.position
  at_position := h.target
  node := by
    obtain ⟨path, hpath, hnode⟩ := h.node?
    exact ⟨_, hnode, ⟨rfl, hpath, rfl, rfl, rfl⟩, rfl⟩
  below := h.below

theorem Holds.enclosed {above : TargetPosition} {number parent handle : Nat} {target : TargetSpec}
    {rest : List TargetSpec} (h : Holds document tree above number parent handle (target :: rest)) :
    Enclosed document tree handle (above ++ [number]) := by
  obtain ⟨path, -, hnode⟩ := h.node?
  refine ⟨parent, h.parent_lt, ?_, ?_⟩
  · rw [parent?, hnode]
    rfl
  · rw [List.dropLast_concat]
    exact h.above_at

/-- Every handle of a part is that of a target, and its parent encloses it. -/
theorem Holds.exists_stands {above : TargetPosition} {number parent handle : Nat}
    {forest : List TargetSpec} (h : Holds document tree above number parent handle forest)
    {offset : Nat} (hoffset : offset < countAll forest) :
    ∃ position target, Stands document tree (handle + offset) position target ∧
      Enclosed document tree (handle + offset) position := by
  induction forest using forest_induction generalizing above number parent handle offset with
  | nil => simp [countAll] at hoffset
  | cons target rest hchildren hrest =>
    cases offset with
    | zero => exact ⟨_, target, h.stands, h.enclosed⟩
    | succ offset =>
      rw [countAll_cons] at hoffset
      by_cases hinside : offset < countAll target.children
      · have hbelow := hchildren h.below hinside
        rwa [show handle + 1 + offset = handle + (offset + 1) by omega] at hbelow
      · have hrange : offset - countAll target.children < countAll rest := by omega
        have hothers := hrest h.rest hrange
        rw [count_eq] at hothers
        rwa [show handle + (1 + countAll target.children) + (offset - countAll target.children)
          = handle + (offset + 1) by omega] at hothers

/-- From the first targets of a part on, a walk passes through the part and then goes on. -/
theorem Holds.walks {above : TargetPosition} {number parent handle : Nat}
    {forest : List TargetSpec} (h : Holds document tree above number parent handle forest)
    {stack order : List Nat} (hstack : Walks tree stack order) :
    Walks tree (handles handle forest ++ stack)
      (List.range' handle (countAll forest) ++ order) := by
  induction forest using forest_induction
    generalizing above number parent handle stack order with
  | nil => exact hstack
  | cons target rest hchildren hrest =>
    obtain ⟨path, -, hnode⟩ := h.node?
    have hbelow := hchildren h.below (hrest h.rest hstack)
    have hrange : List.range' handle (countAll (target :: rest)) ++ order
        = handle :: (List.range' (handle + 1) (countAll target.children)
          ++ (List.range' (handle + target.count) (countAll rest) ++ order)) := by
      rw [countAll_cons, List.range'_succ, List.cons_append, ← List.append_assoc, count_eq,
        show handle + (1 + countAll target.children) = handle + 1 + countAll target.children by
          omega, List.range'_append_1]
    rw [hrange]
    exact .visit hnode hbelow

/-! ## Handles -/

theorem Stands.walks {handle : Nat} {position : TargetPosition} {target : TargetSpec}
    (h : Stands document tree handle position target) :
    Walks tree [handle] (List.range' handle target.count) := by
  obtain ⟨node, hnode, -, hchildren⟩ := h.node
  have hbelow := h.below.walks .done
  rw [← hchildren, List.append_nil (List.range' _ _)] at hbelow
  rw [count_eq, Nat.add_comm, List.range'_succ]
  exact .visit hnode hbelow

/-- A subtree ends within its tree. -/
theorem Stands.end_le {handle : Nat} {position : TargetPosition} {target : TargetSpec}
    (h : Stands document tree handle position target) :
    handle + target.count ≤ tree.nodes.length := by
  obtain ⟨nodes, before, after, hflatten, hnodes, hbefore⟩ := h.below.laidOut
  rw [hnodes, List.length_append, List.length_append, length_of_flattenAll hflatten, hbefore,
    count_eq]
  omega

theorem Stands.walk_eq {handle : Nat} {position : TargetPosition} {target : TargetSpec}
    (h : Stands document tree handle position target) :
    tree.walk handle = List.range' handle target.count := by
  have hend := h.end_le
  refine visit_of_walks h.walks ?_
  rw [List.length_range']
  omega

/-- What is below a target follows it without a gap. -/
theorem Stands.below_iff {top : Nat} {position : TargetPosition} {target : TargetSpec}
    (h : Stands document tree top position target) (handle : Nat) :
    document.Below top handle ↔ handle ∈ List.range' top target.count := by
  obtain ⟨before, after, hpositions, hbefore⟩ := h.below.numbered
  have hbelow : ∀ {offset : Nat} {rest : TargetPosition},
      (positionsFrom 0 target.children)[offset]? = some rest →
        document.positions[top + 1 + offset]? = some (position ++ rest) := by
    intro offset rest hrest
    have hlt : offset < (positionsFrom 0 target.children).length :=
      (List.getElem?_eq_some_iff.mp hrest).1
    rw [hpositions, ← hbefore, List.getElem?_append_right (Nat.le_add_right _ _),
      Nat.add_sub_cancel_left, List.getElem?_append_left (by simpa using hlt), List.getElem?_map,
      hrest]
    rfl
  rw [List.mem_range'_1]
  constructor
  · rintro ⟨position', lower, hposition', hlower, rest, rfl⟩
    cases h.at_handle.symm.trans hposition'
    -- The longer position leads to a target, so it is one of those below.
    have hsome : (document.system.at? (position ++ rest)).isSome :=
      mem_positions.mp (List.mem_of_getElem? hlower)
    rw [at?_append, h.at_position, Option.bind_some] at hsome
    have hmem := mem_positions.mpr hsome
    rw [TargetSpec.positions_eq, List.mem_cons] at hmem
    have hinj : ∀ {other : Nat}, document.positions[other]? = some (position ++ rest) →
        handle = other := by
      intro other hother
      have hlt := (List.getElem?_eq_some_iff.mp hlower).1
      exact (List.getElem?_inj hlt (nodup_positions document.system)).mp
        (hlower.trans hother.symm)
    rw [count_eq]
    rcases hmem with rfl | hmem
    · rw [List.append_nil] at hinj
      have heq := hinj h.at_handle
      omega
    · obtain ⟨offset, hoffset⟩ := List.getElem?_of_mem hmem
      have heq := hinj (hbelow hoffset)
      have hlt := (List.getElem?_eq_some_iff.mp hoffset).1
      rw [length_positionsFrom] at hlt
      omega
  · rintro ⟨hle, hlt⟩
    rw [count_eq] at hlt
    by_cases heq : handle = top
    · subst heq
      exact ⟨position, position, h.at_handle, h.at_handle, List.prefix_rfl⟩
    · obtain ⟨offset, rfl⟩ := Nat.exists_eq_add_of_le (Nat.lt_of_le_of_ne hle (Ne.symm heq))
      have hoffset : offset < (positionsFrom 0 target.children).length := by
        rw [length_positionsFrom]
        omega
      refine ⟨position, _, h.at_handle, hbelow (List.getElem?_eq_getElem hoffset), ?_⟩
      exact List.prefix_append _ _

/-- In a row of growing numbers a search finds the least. -/
theorem find?_eq_some_iff_least {numbers : List Nat} (hgrowing : numbers.Pairwise (· < ·))
    (fits : Nat → Bool) (found : Nat) :
    numbers.find? fits = some found ↔
      found ∈ numbers ∧ fits found = true ∧
        ∀ number ∈ numbers, fits number = true → found ≤ number := by
  induction numbers with
  | nil => simp
  | cons first rest ih =>
    obtain ⟨hfirst, hrest⟩ := List.pairwise_cons.mp hgrowing
    cases hfits : fits first with
    | true =>
      rw [List.find?_cons_of_pos hfits, Option.some.injEq]
      constructor
      · rintro rfl
        refine ⟨.head _, hfits, ?_⟩
        intro number hnumber _
        rcases List.mem_cons.mp hnumber with rfl | hnumber
        · exact Nat.le_refl _
        · exact Nat.le_of_lt (hfirst number hnumber)
      · intro ⟨hfound, _, hleast⟩
        rcases List.mem_cons.mp hfound with rfl | hfound
        · rfl
        · have hle := hleast first (.head _) hfits
          have hlt := hfirst found hfound
          omega
    | false =>
      rw [List.find?_cons_of_neg (by simp [hfits]), ih hrest]
      have hne : fits found = true → found ≠ first := by
        rintro hfound rfl
        rw [hfits] at hfound
        cases hfound
      constructor
      · intro ⟨hfound, hfitsFound, hleast⟩
        refine ⟨.tail _ hfound, hfitsFound, ?_⟩
        intro number hnumber hfitsNumber
        rcases List.mem_cons.mp hnumber with rfl | hnumber
        · rw [hfits] at hfitsNumber
          cases hfitsNumber
        · exact hleast number hnumber hfitsNumber
      · intro ⟨hfound, hfitsFound, hleast⟩
        have hmem := (List.mem_cons.mp hfound).resolve_left (hne hfitsFound)
        exact ⟨hmem, hfitsFound, fun number hnumber => hleast number (.tail _ hnumber)⟩

/-! ## What a tree tells of a target -/

/-- The decoded path of a handle. -/
def path? (tree : TargetTree) (handle : Nat) : Option Bytes :=
  (tree.node? handle).bind (·.physicalPath)

/-- What a tree tells of a handle is what the document says of the target there. -/
structure Tells (tree : TargetTree) (handle : Nat) (target : TargetSpec) : Prop where
  name : tree.name? handle = some target.name
  path : tree.path? handle
    = target.physicalPath.bind fun text => (HexPath.parse text).toOption
  devicePath : tree.devicePath handle = target.devicePath
  unitId : tree.unitId handle = target.unitId

theorem Represents.tells {tree : TargetTree} {handle : Nat} {target : TargetSpec}
    {node : TargetNode} (h : Represents target node) (hnode : tree.node? handle = some node) :
    Tells tree handle target where
  name := by rw [name?, hnode, Option.map_some, h.name]
  path := by rw [path?, hnode, Option.bind_some, h.decodedPath]
  devicePath := by rw [TargetTree.devicePath, hnode, Option.bind_some, h.devicePath]
  unitId := by rw [TargetTree.unitId, hnode, Option.bind_some, h.unitId]

/-! ## Trees of documents -/

section

variable (h : ofDocument document = .ok tree)
include h

theorem length_positions_of_document : document.positions.length = tree.nodes.length := by
  obtain ⟨nodes, hnodes, rfl⟩ := ofDocument_eq_ok_iff.mp h
  rw [TargetDocument.positions_eq, List.length_cons, List.length_cons, length_positionsFrom,
    length_of_flattenAll hnodes]

theorem stands_root : Stands document tree 0 [] document.system := by
  obtain ⟨nodes, hnodes, rfl⟩ := ofDocument_eq_ok_iff.mp h
  constructor
  case at_handle => rw [TargetDocument.positions_eq]; rfl
  case at_position => rfl
  case node => exact ⟨rootOf document, rfl, ⟨rfl, rfl, rfl, rfl, rfl⟩, rfl⟩
  case below =>
    constructor
    case laidOut => exact ⟨nodes, [rootOf document], [], hnodes, by simp, rfl⟩
    case numbered =>
      refine ⟨[[]], [], ?_, rfl⟩
      rw [TargetDocument.positions_eq]
      simp [TargetDocument.system]
    case above_at => rw [TargetDocument.positions_eq]; rfl
    case parent_lt => exact Nat.one_pos
    case children => exact ⟨document.system, rfl, List.drop_zero⟩

theorem exists_stands {handle : Nat} (hhandle : handle < tree.nodes.length) :
    ∃ position target, Stands document tree handle position target ∧
      (handle ≠ 0 → Enclosed document tree handle position) := by
  cases handle with
  | zero => exact ⟨[], document.system, stands_root h, fun hne => absurd rfl hne⟩
  | succ offset =>
    rw [← length_positions_of_document h, TargetDocument.positions_eq, List.length_cons,
      length_positionsFrom] at hhandle
    obtain ⟨position, target, hstands, henclosed⟩ :=
      (stands_root h).below.exists_stands (Nat.lt_of_succ_lt_succ hhandle)
    rw [Nat.zero_add, Nat.add_comm] at hstands henclosed
    exact ⟨position, target, hstands, fun _ => henclosed⟩

theorem stands_of_position {handle : Nat} {position : TargetPosition}
    (hposition : document.positions[handle]? = some position) :
    ∃ target, Stands document tree handle position target ∧
      (handle ≠ 0 → Enclosed document tree handle position) := by
  have hlt := (List.getElem?_eq_some_iff.mp hposition).1
  rw [length_positions_of_document h] at hlt
  obtain ⟨position', target, hstands, henclosed⟩ := exists_stands h hlt
  cases hposition.symm.trans hstands.at_handle
  exact ⟨target, hstands, henclosed⟩

theorem walks_walk {top : Nat} (htop : top < tree.nodes.length) :
    Walks tree [top] (tree.walk top) := by
  obtain ⟨position, target, hstands, -⟩ := exists_stands h htop
  rw [hstands.walk_eq]
  exact hstands.walks

/-- A walk meets a target and those below it, and no others. -/
theorem mem_walk_iff (top handle : Nat) : handle ∈ tree.walk top ↔ document.Below top handle := by
  by_cases htop : top < tree.nodes.length
  · obtain ⟨position, target, hstands, -⟩ := exists_stands h htop
    rw [hstands.walk_eq, hstands.below_iff]
  · have hnode : tree.node? top = none := List.getElem?_eq_none (Nat.le_of_not_lt htop)
    have hwalk : tree.walk top = [] := by
      unfold walk
      cases tree.nodes.length with
      | zero => rfl
      | succ fuel =>
        simp only [visit, hnode]
        cases fuel <;> rfl
    have hnone : document.positions[top]? = none := by
      rw [List.getElem?_eq_none_iff, length_positions_of_document h]
      exact Nat.le_of_not_lt htop
    simp [hwalk, TargetDocument.Below, hnone]

theorem pairwise_walk (top : Nat) : (tree.walk top).Pairwise (· < ·) := by
  by_cases htop : top < tree.nodes.length
  · obtain ⟨position, target, hstands, -⟩ := exists_stands h htop
    rw [hstands.walk_eq]
    exact List.pairwise_lt_range'
  · have hempty : tree.walk top = [] := by
      rw [List.eq_nil_iff_forall_not_mem]
      rintro handle hmem
      obtain ⟨position, -, hposition, -⟩ := (mem_walk_iff h top handle).mp hmem
      have hlt := (List.getElem?_eq_some_iff.mp hposition).1
      rw [length_positions_of_document h] at hlt
      exact htop hlt
    simp [hempty]

/-- A handle is that of a target or it is none, and then it is told nothing of. -/
theorem tells_or_none (handle : Nat) :
    (∃ position target, document.positions[handle]? = some position ∧
      document.system.at? position = some target ∧ Tells tree handle target) ∨
    (document.positions[handle]? = none ∧ tree.node? handle = none) := by
  by_cases hlt : handle < tree.nodes.length
  · obtain ⟨position, target, hstands, -⟩ := exists_stands h hlt
    obtain ⟨node, hnode, hrepresents, -⟩ := hstands.node
    exact .inl ⟨position, target, hstands.at_handle, hstands.at_position, hrepresents.tells hnode⟩
  · refine .inr ⟨?_, List.getElem?_eq_none (Nat.le_of_not_lt hlt)⟩
    rw [List.getElem?_eq_none_iff, length_positions_of_document h]
    exact Nat.le_of_not_lt hlt

theorem name?_eq_some_iff (name : String) (handle : Nat) :
    tree.name? handle = some name ↔ document.Named name handle := by
  rcases tells_or_none h handle with ⟨position, target, hposition, htarget, htells⟩ | ⟨hnone, hnode⟩
  · simp [TargetDocument.Named, hposition, TargetSpec.name?, htarget, htells.name]
  · simp [TargetDocument.Named, hnone, name?, hnode]

theorem path?_eq_some_iff (path : Bytes) (handle : Nat) :
    tree.path? handle = some path ↔ document.HasPath path handle := by
  rcases tells_or_none h handle with ⟨position, target, hposition, htarget, htells⟩ | ⟨hnone, hnode⟩
  · simp [TargetDocument.HasPath, hposition, TargetDocument.path?, htarget, htells.path]
  · simp [TargetDocument.HasPath, hnone, path?, hnode]

/-! ## Searches -/

theorem findByPath_eq_some_iff (top : Nat) (path : Bytes) (handle : Nat) :
    tree.findByPath top path = some handle ↔
      document.Below top handle ∧ document.HasPath path handle ∧
        ∀ other, document.Below top other → document.HasPath path other → handle ≤ other := by
  unfold findByPath
  rw [find?_eq_some_iff_least (pairwise_walk h top)]
  simp only [mem_walk_iff h, decide_eq_true_eq, ← path?_eq_some_iff h, path?]

theorem findByPath_eq_none_iff (top : Nat) (path : Bytes) :
    tree.findByPath top path = none ↔
      ∀ handle, document.Below top handle → ¬document.HasPath path handle := by
  unfold findByPath
  rw [List.find?_eq_none]
  simp only [mem_walk_iff h, decide_eq_true_eq, ← path?_eq_some_iff h, path?]

/-- Every target with a name is met by the walk from the root. -/
theorem mem_walk_root_of_named {name : String} {handle : Nat}
    (hnamed : document.Named name handle) :
    handle ∈ tree.walk 0 := by
  obtain ⟨position, hposition, -⟩ := hnamed
  have hlt := (List.getElem?_eq_some_iff.mp hposition).1
  rw [length_positions_of_document h] at hlt
  rw [walk_root h, List.mem_range]
  exact hlt

theorem findByName_eq_some_iff (name : String) (handle : Nat) :
    tree.findByName name = some handle ↔
      document.Named name handle ∧ ∀ other, document.Named name other → handle ≤ other := by
  unfold findByName
  rw [find?_eq_some_iff_least (pairwise_walk h 0)]
  simp only [decide_eq_true_eq, name?_eq_some_iff h]
  constructor
  · intro ⟨_, hnamed, hleast⟩
    exact ⟨hnamed, fun other hother => hleast other (mem_walk_root_of_named h hother) hother⟩
  · intro ⟨hnamed, hleast⟩
    exact ⟨mem_walk_root_of_named h hnamed, hnamed, fun other _ hother => hleast other hother⟩

theorem findByName_eq_none_iff (name : String) :
    tree.findByName name = none ↔ ∀ handle, ¬document.Named name handle := by
  unfold findByName
  rw [List.find?_eq_none]
  simp only [decide_eq_true_eq, name?_eq_some_iff h]
  exact ⟨fun hnone handle hnamed => hnone handle (mem_walk_root_of_named h hnamed) hnamed,
    fun hnone handle _ => hnone handle⟩

end

/-- A tree numbers the positions of a document: what is at a handle, what is above it and below it,
what the tree tells of it, and what a search finds, is said by the position that has this number. -/
structure NumbersPositions (document : TargetDocument) (tree : TargetTree) : Prop where
  /-- There is a handle for every target at any depth, and one for the system. -/
  size : tree.size = (preorderAll document.targets).length ∧
    document.positions.length = tree.nodes.length
  /-- The positions are those of targets, each once and in lexicographic order. -/
  ordered : document.positions.Pairwise (· < ·) ∧
    ∀ position, position ∈ document.positions ↔ (document.system.at? position).isSome
  /-- That is the order of a walk through the document from the top. -/
  preorder : document.positions.map document.system.at?
    = some document.system :: (preorderAll document.targets).map some
  /-- Handle 0 is the system, which has no parent. -/
  root : document.positions[0]? = some [] ∧ tree.node? 0 = some (rootOf document) ∧
    tree.parent? 0 = none
  /-- At every handle is the target of its position. -/
  node : ∀ handle position, document.positions[handle]? = some position →
    ∃ target node, document.system.at? position = some target ∧
      tree.node? handle = some node ∧ Represents target node
  /-- The tree tells of every handle what the document says of its target: the name, the decoded
  path, the device path and the replaceable unit. -/
  tells : ∀ handle position target, document.positions[handle]? = some position →
    document.system.at? position = some target → Tells tree handle target
  /-- The parent of every other handle is that of the enclosing target, and smaller. -/
  parent : ∀ handle position, document.positions[handle]? = some position → handle ≠ 0 →
    ∃ parent < handle, tree.parent? handle = some parent ∧
      document.positions[parent]? = some position.dropLast
  /-- The walk from a handle ends, and meets its target and those below it, each once and in
  growing order. -/
  walk : ∀ top, (top < tree.nodes.length → Walks tree [top] (tree.walk top)) ∧
    (tree.walk top).Pairwise (· < ·) ∧
    ∀ handle, handle ∈ tree.walk top ↔ document.Below top handle
  /-- A search for a path finds the least handle of a target that has it, if there is one. -/
  findByPath : ∀ top path,
    (∀ handle, tree.findByPath top path = some handle ↔
      document.Below top handle ∧ document.HasPath path handle ∧
        ∀ other, document.Below top other → document.HasPath path other → handle ≤ other) ∧
    (tree.findByPath top path = none ↔
      ∀ handle, document.Below top handle → ¬document.HasPath path handle) ∧
    (tree.nodes.length ≤ top → tree.findByPath top path = none)
  /-- A search for a name finds the least handle of a target that has it, if there is one. -/
  findByName : ∀ name,
    (∀ handle, tree.findByName name = some handle ↔
      document.Named name handle ∧ ∀ other, document.Named name other → handle ≤ other) ∧
    (tree.findByName name = none ↔ ∀ handle, ¬document.Named name handle)

/-- The tree of a document numbers its positions. -/
theorem numbers_positions (h : ofDocument document = .ok tree) :
    NumbersPositions document tree where
  size := by
    have hlength := length_positions_of_document h
    refine ⟨?_, hlength⟩
    rw [size, ← hlength, TargetDocument.positions_eq, List.length_cons, length_positionsFrom,
      Nat.add_sub_cancel, length_preorderAll]
  ordered := ⟨pairwise_positions _, fun _ => mem_positions⟩
  preorder := by
    have hbelow : (positionsFrom 0 document.targets).map document.system.at?
        = (preorderAll document.targets).map some := map_at?_positionsFrom List.drop_zero
    rw [TargetDocument.positions_eq, List.map_cons, hbelow]
    rfl
  root := by
    obtain ⟨nodes, -, rfl⟩ := ofDocument_eq_ok_iff.mp h
    rw [TargetDocument.positions_eq]
    exact ⟨rfl, rfl, rfl⟩
  node := by
    intro handle position hposition
    obtain ⟨target, hstands, -⟩ := stands_of_position h hposition
    obtain ⟨node, hnode, hrepresents, -⟩ := hstands.node
    exact ⟨target, node, hstands.at_position, hnode, hrepresents⟩
  tells := by
    intro handle position target hposition htarget
    obtain ⟨other, hstands, -⟩ := stands_of_position h hposition
    obtain ⟨node, hnode, hrepresents, -⟩ := hstands.node
    cases htarget.symm.trans hstands.at_position
    exact hrepresents.tells hnode
  parent := by
    intro handle position hposition hne
    obtain ⟨target, -, henclosed⟩ := stands_of_position h hposition
    exact henclosed hne
  walk := fun top => ⟨walks_walk h, pairwise_walk h top, mem_walk_iff h top⟩
  findByPath := by
    intro top path
    refine ⟨findByPath_eq_some_iff h top path, findByPath_eq_none_iff h top path, ?_⟩
    intro htop
    rw [findByPath_eq_none_iff h]
    rintro handle ⟨position, _, hposition, -⟩
    have hlt := (List.getElem?_eq_some_iff.mp hposition).1
    rw [length_positions_of_document h] at hlt
    omega
  findByName := fun name => ⟨findByName_eq_some_iff h name, findByName_eq_none_iff h name⟩

/-- Targets three levels deep. A path stands again below a sibling of its first target, and a name
below the target that has it. -/
def nestedTargets : TargetDocument where
  targets := [
    { name := "node", physicalPath := some "0xAB" },
    { name := "node", physicalPath := some "01", children := [
      { name := "core", children := [{ name := "node", physicalPath := some "ab" }] },
      { name := "core", unitId := some 9 }] }]

/-- A search below the second target finds what a search from the root does not. The name of the
first target is found there and not at the targets below. -/
theorem numbers_positions_nested :
    ∃ tree, ofDocument nestedTargets = .ok tree ∧ NumbersPositions nestedTargets tree ∧
      nestedTargets.positions = [[], [0], [1], [1, 0], [1, 0, 0], [1, 1]] ∧
      tree.walk 2 = [2, 3, 4, 5] ∧ tree.findByPath 0 [0xAB] = some 1 ∧
      tree.findByPath 2 [0xAB] = some 4 ∧ tree.findByPath 5 [0xAB] = none ∧
      tree.findByName "system" = some 0 ∧ tree.findByName "node" = some 1 ∧
      tree.findByName "core" = some 3 ∧ tree.unitId 5 = some 9 := by
  have hok : (ofDocument nestedTargets).toOption.isSome = true := by decide +kernel
  have hfound : (ofDocument nestedTargets).toOption.map (fun tree =>
      (tree.walk 2, tree.findByPath 0 [0xAB], tree.findByPath 2 [0xAB], tree.findByPath 5 [0xAB]))
      = some ([2, 3, 4, 5], some 1, some 4, none) := by decide +kernel
  have hnamed : (ofDocument nestedTargets).toOption.map (fun tree =>
      (tree.findByName "system", tree.findByName "node", tree.findByName "core", tree.unitId 5))
      = some (some 0, some 1, some 3, some 9) := by decide +kernel
  obtain ⟨tree, hsome⟩ := Option.isSome_iff_exists.mp hok
  have h := Outcome.toOption_eq_some_iff.mp hsome
  rw [hsome, Option.map_some, Option.some.injEq] at hfound hnamed
  simp only [Prod.mk.injEq] at hfound hnamed
  obtain ⟨hwalk, hfirst, hbelow, hnone⟩ := hfound
  exact ⟨tree, h, numbers_positions h, by decide +kernel, hwalk, hfirst, hbelow, hnone, hnamed⟩

end TargetTree

end FirstFailure
