import FirstFailure.Proofs.Outcome
import FirstFailure.Target.Tree
/-!
# How a tree is laid out

A tree grows by one target at a time, at its end, and a parent that is already there is changed when
it gets a child. What comes out of this is said without it: the handles of targets in a row depend
on their sizes only, so the row is written down from the front, with every target's children in
place.
-/

namespace FirstFailure

namespace TargetSpec

/-- What holds of no targets, and of a target in front of others when it holds of its children and
of the others, holds of all targets in a row. -/
@[elab_as_elim]
theorem forest_induction {motive : List TargetSpec → Prop} (nil : motive [])
    (cons : ∀ target rest, motive target.children → motive rest → motive (target :: rest)) :
    ∀ forest, motive forest
  | [] => nil
  | ⟨name, physicalPath, devicePath, locationCode, unitId, children⟩ :: rest =>
      cons ⟨name, physicalPath, devicePath, locationCode, unitId, children⟩ rest
        (forest_induction nil cons children) (forest_induction nil cons rest)
termination_by forest => sizeOf forest
decreasing_by
  all_goals
    simp only [List.cons.sizeOf_spec, TargetSpec.mk.sizeOf_spec]
    omega

theorem count_eq (target : TargetSpec) : target.count = 1 + countAll target.children := by
  cases target
  rw [count]

theorem countAll_cons (target : TargetSpec) (rest : List TargetSpec) :
    countAll (target :: rest) = countAll target.children + countAll rest + 1 := by
  rw [countAll, count_eq]
  omega

end TargetSpec

namespace TargetTree

open TargetSpec

/-! ## The row from the front -/

/-- The handles of targets in a row, the first of which has the given handle. -/
def handles (handle : Nat) : List TargetSpec → List Nat
  | [] => []
  | target :: rest => handle :: handles (handle + target.count) rest

/-- The node of a target with its place in the row. -/
def nodeOf (target : TargetSpec) (parent handle : Nat) (path : Option Bytes) : TargetNode where
  name := target.name
  parent := some parent
  children := handles (handle + 1) target.children
  physicalPath := path
  devicePath := target.devicePath
  locationCode := target.locationCode
  unitId := target.unitId

mutual

/-- The targets of a subtree whose top has the given parent and handle. -/
def flatten (parent handle : Nat) : TargetSpec → Except TreeError (List TargetNode)
  | ⟨name, path, devicePath, locationCode, unitId, children⟩ => do
    let path ← physicalPath name path
    let below ← flattenAll handle (handle + 1) children
    return {
      name
      parent := some parent
      children := handles (handle + 1) children
      physicalPath := path
      devicePath
      locationCode
      unitId } :: below

/-- The targets of subtrees in a row. -/
def flattenAll (parent handle : Nat) : List TargetSpec → Except TreeError (List TargetNode)
  | [] => .ok []
  | target :: rest => do
    let first ← flatten parent handle target
    let others ← flattenAll parent (handle + target.count) rest
    return first ++ others

end

/-- A row of targets is laid out path by path: first the target itself, then those below it, then
the others. -/
theorem flattenAll_cons (parent handle : Nat) (target : TargetSpec) (rest : List TargetSpec) :
    flattenAll parent handle (target :: rest) = do
      let path ← physicalPath target.name target.physicalPath
      let below ← flattenAll handle (handle + 1) target.children
      let others ← flattenAll parent (handle + target.count) rest
      return nodeOf target parent handle path :: (below ++ others) := by
  cases target
  rw [flattenAll, flatten]
  simp only [bind_assoc, pure_bind]
  rfl

theorem flattenAll_cons_eq_ok_iff {parent handle : Nat} {target : TargetSpec}
    {rest : List TargetSpec} {nodes : List TargetNode} :
    flattenAll parent handle (target :: rest) = .ok nodes ↔
      ∃ path below others,
        physicalPath target.name target.physicalPath = .ok path ∧
        flattenAll handle (handle + 1) target.children = .ok below ∧
        flattenAll parent (handle + target.count) rest = .ok others ∧
        nodes = nodeOf target parent handle path :: (below ++ others) := by
  simp only [flattenAll_cons, Outcome.bind_eq_ok_iff, pure, Except.pure, Except.ok.injEq]
  constructor
  · rintro ⟨path, hpath, below, hbelow, others, hothers, rfl⟩
    exact ⟨path, below, others, hpath, hbelow, hothers, rfl⟩
  · rintro ⟨path, below, others, hpath, hbelow, hothers, rfl⟩
    exact ⟨path, hpath, below, hbelow, others, hothers, rfl⟩

theorem length_of_flattenAll {parent handle : Nat} {forest : List TargetSpec}
    {nodes : List TargetNode} (h : flattenAll parent handle forest = .ok nodes) :
    nodes.length = countAll forest := by
  induction forest using forest_induction generalizing parent handle nodes with
  | nil =>
    rw [flattenAll] at h
    cases h
    rfl
  | cons target rest hchildren hrest =>
    obtain ⟨path, below, others, -, hbelow, hothers, rfl⟩ := flattenAll_cons_eq_ok_iff.mp h
    rw [countAll_cons, List.length_cons, List.length_append, hchildren hbelow, hrest hothers]

/-! ## Adding targets -/

theorem adopt_adopt (node : TargetNode) (handles others : List Nat) :
    (node.adopt handles).adopt others = node.adopt (handles ++ others) := by
  simp [TargetNode.adopt]

/-- A tree with targets behind the others, the children of one that is already there. -/
def graft (tree : TargetTree) (parent : Nat) (children : List Nat) (nodes : List TargetNode) :
    TargetTree :=
  ⟨tree.nodes.modify parent (·.adopt children) ++ nodes⟩

theorem length_graft (tree : TargetTree) (parent : Nat) (children : List Nat)
    (nodes : List TargetNode) :
    (tree.graft parent children nodes).nodes.length = tree.nodes.length + nodes.length := by
  rw [graft, List.length_append, List.length_modify]

theorem modify_append_left {nodes others : List TargetNode} {i : Nat} (h : i < nodes.length)
    (change : TargetNode → TargetNode) :
    (nodes ++ others).modify i change = nodes.modify i change ++ others := by
  rw [List.modify_eq_take_cons_drop h, List.modify_eq_take_cons_drop (by simp; omega),
    List.take_append_of_le_length (Nat.le_of_lt h), List.drop_append_of_le_length h,
    List.getElem_append_left h, List.append_assoc, List.cons_append]

theorem push_eq_graft {tree : TargetTree} {parent : Nat} (h : parent < tree.nodes.length)
    (node : TargetNode) : tree.push parent node = tree.graft parent [tree.nodes.length] [node] := by
  rw [push, graft, modify_append_left h]

/-- Children of the same parent are grafted one behind the other. -/
theorem graft_graft {tree : TargetTree} {parent : Nat} (h : parent < tree.nodes.length)
    (children others : List Nat) (nodes more : List TargetNode) :
    (tree.graft parent children nodes).graft parent others more
      = tree.graft parent (children ++ others) (nodes ++ more) := by
  have hlength : parent < (tree.nodes.modify parent (·.adopt children)).length := by
    rwa [List.length_modify]
  have hadopt : (fun node : TargetNode => (node.adopt children).adopt others)
      = fun node => node.adopt (children ++ others) :=
    funext fun node => adopt_adopt node children others
  rw [graft, graft, graft, modify_append_left hlength, List.modify_modify_eq, Function.comp_def,
    hadopt, List.append_assoc]

/-- What is grafted below a target that was just added becomes part of that target. -/
theorem graft_below (tree : TargetTree) (parent : Nat) (node : TargetNode)
    (children : List Nat) (nodes : List TargetNode) :
    (tree.graft parent [tree.nodes.length] [node]).graft tree.nodes.length children nodes
      = tree.graft parent [tree.nodes.length] (node.adopt children :: nodes) := by
  have hlength : (tree.nodes.modify parent (·.adopt [tree.nodes.length])).length
      = tree.nodes.length := List.length_modify ..
  rw [graft, graft, graft, List.modify_eq_take_cons_drop (by simp [hlength])]
  simp [hlength]

/-- Nothing is grafted. -/
theorem graft_nil (tree : TargetTree) (parent : Nat) : tree.graft parent [] [] = tree := by
  have hadopt : (fun node : TargetNode => node.adopt []) = id := by
    funext node
    simp [TargetNode.adopt]
  rw [graft, hadopt, List.modify_id, List.append_nil]

/-- The node of a target before it has children. -/
def bareOf (target : TargetSpec) (parent : Nat) (path : Option Bytes) : TargetNode where
  name := target.name
  parent := some parent
  children := []
  physicalPath := path
  devicePath := target.devicePath
  locationCode := target.locationCode
  unitId := target.unitId

theorem adopt_bareOf (target : TargetSpec) (parent handle : Nat) (path : Option Bytes) :
    (bareOf target parent path).adopt (handles (handle + 1) target.children)
      = nodeOf target parent handle path := rfl

theorem addAll_cons (tree : TargetTree) (parent : Nat) (target : TargetSpec)
    (rest : List TargetSpec) :
    tree.addAll parent (target :: rest) = (do
      let path ← physicalPath target.name target.physicalPath
      let grown ← (tree.push parent (bareOf target parent path)).addAll tree.nodes.length
        target.children
      grown.addAll parent rest) := by
  cases target
  rw [addAll, add]
  simp only [bind_assoc]
  rfl

/-- Adding targets leaves the row with theirs behind it, and a parent with their handles behind
those of its children. -/
theorem addAll_eq {tree : TargetTree} {parent : Nat} (h : parent < tree.nodes.length)
    (forest : List TargetSpec) :
    tree.addAll parent forest = (flattenAll parent tree.nodes.length forest).map fun nodes =>
      tree.graft parent (handles tree.nodes.length forest) nodes := by
  induction forest using forest_induction generalizing tree parent with
  | nil => rw [addAll, flattenAll, handles, Except.map, graft_nil]
  | cons target rest hchildren hrest =>
    rw [addAll_cons, flattenAll_cons]
    cases physicalPath target.name target.physicalPath with
    | error e => rfl
    | ok path =>
      have hpushed : tree.nodes.length
          < (tree.graft parent [tree.nodes.length] [bareOf target parent path]).nodes.length := by
        rw [length_graft]
        exact Nat.lt_succ_self _
      have hbelow := hchildren hpushed
      rw [length_graft, List.length_singleton] at hbelow
      simp only [bind, Except.bind, push_eq_graft h, hbelow]
      cases hflatten : flattenAll tree.nodes.length (tree.nodes.length + 1) target.children with
      | error e => rfl
      | ok below =>
        have hlength := length_of_flattenAll hflatten
        have hgrown : parent < (tree.graft parent [tree.nodes.length]
            (nodeOf target parent tree.nodes.length path :: below)).nodes.length := by
          rw [length_graft]
          omega
        have hothers := hrest hgrown
        have hnext : (tree.graft parent [tree.nodes.length]
            (nodeOf target parent tree.nodes.length path :: below)).nodes.length
            = tree.nodes.length + target.count := by
          rw [length_graft, List.length_cons, hlength, count_eq, Nat.add_comm 1]
        rw [hnext] at hothers
        simp only [Except.map, graft_below, adopt_bareOf, hothers]
        cases flattenAll parent (tree.nodes.length + target.count) rest with
        | error e => rfl
        | ok others =>
          simp only [graft_graft h]
          rfl

/-! ## Trees of documents -/

/-- The root with its children. -/
def rootOf (document : TargetDocument) : TargetNode :=
  { rootNode document with children := handles 1 document.targets }

theorem ofDocument_eq (document : TargetDocument) :
    ofDocument document = (flattenAll 0 1 document.targets).map fun nodes =>
      ⟨rootOf document :: nodes⟩ := by
  have hroot : 0 < (⟨[rootNode document]⟩ : TargetTree).nodes.length := Nat.one_pos
  exact addAll_eq hroot document.targets

theorem ofDocument_eq_ok_iff {document : TargetDocument} {tree : TargetTree} :
    ofDocument document = .ok tree ↔
      ∃ nodes, flattenAll 0 1 document.targets = .ok nodes ∧
        tree = ⟨rootOf document :: nodes⟩ := by
  rw [ofDocument_eq]
  cases flattenAll 0 1 document.targets with
  | error e => simp [Except.map]
  | ok nodes => simp [Except.map, @eq_comm _ tree]

end TargetTree

end FirstFailure
