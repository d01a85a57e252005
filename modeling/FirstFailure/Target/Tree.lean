import FirstFailure.Target.Document
import FirstFailure.Target.HexPath
import FirstFailure.Target.Lookup
/-!
# Target trees

A tree holds targets in a row, and every target knows its parent and its children by handle, which
is the place in the row. Handle 0 is the root. The targets of a document are added one after another
in the order of a walk from the top.
-/

namespace FirstFailure

/-- A target of a tree. -/
structure TargetNode where
  name : String
  parent : Option Nat
  children : List Nat
  physicalPath : Option Bytes
  devicePath : Option String
  locationCode : Option String
  unitId : Option UInt32
deriving Repr, DecidableEq, Inhabited

/-- Why a document describes no tree: a target's physical path is no path. -/
structure TreeError where
  target : String
  text : String
  fault : HexPath.Fault
deriving Repr, DecidableEq

/-- The text of a tree error. -/
def TreeError.message (error : TreeError) : String :=
  "target '" ++ error.target ++ "': invalid physical path '" ++ error.text ++ "': "
    ++ error.fault.message

/-- The targets of a tree by handle. -/
structure TargetTree where
  nodes : List TargetNode
deriving Repr, DecidableEq

/-- A target with more children behind its own. -/
def TargetNode.adopt (node : TargetNode) (handles : List Nat) : TargetNode :=
  { node with children := node.children ++ handles }

namespace TargetTree

/-- The path of a target, if it has one. -/
def physicalPath (name : String) : Option String → Except TreeError (Option Bytes)
  | none => .ok none
  | some text =>
    match HexPath.parse text with
    | .ok path => .ok (some path)
    | .error fault => .error ⟨name, text, fault⟩

/-- Put a target behind the others. Its handle is the number of the targets so far, and its parent
counts it among its children. -/
def push (tree : TargetTree) (parent : Nat) (node : TargetNode) : TargetTree :=
  ⟨(tree.nodes ++ [node]).modify parent (·.adopt [tree.nodes.length])⟩

mutual

/-- Add a target and those below it. -/
def add (tree : TargetTree) (parent : Nat) : TargetSpec → Except TreeError TargetTree
  | ⟨name, path, devicePath, locationCode, unitId, children⟩ => do
    let path ← physicalPath name path
    let node : TargetNode := {
      name
      parent := some parent
      children := []
      physicalPath := path
      devicePath
      locationCode
      unitId }
    addAll (tree.push parent node) tree.nodes.length children

/-- Add several children of one parent and those below them. The first path that is none, in the
order of the walk, decides the error. -/
def addAll (tree : TargetTree) (parent : Nat) : List TargetSpec → Except TreeError TargetTree
  | [] => .ok tree
  | target :: rest => do
    let tree ← add tree parent target
    addAll tree parent rest

end

/-- The name of the root. -/
def rootName : String := "system"

/-- The root before targets are added. It stands for the system. -/
def rootNode (document : TargetDocument) : TargetNode where
  name := rootName
  parent := none
  children := []
  physicalPath := none
  devicePath := none
  locationCode := document.locationCode
  unitId := none

/-- The tree that a document describes. -/
def ofDocument (document : TargetDocument) : Except TreeError TargetTree :=
  addAll ⟨[rootNode document]⟩ 0 document.targets

/-- The target of a handle. -/
def node? (tree : TargetTree) (handle : Nat) : Option TargetNode := tree.nodes[handle]?

/-- The number of targets, the root not counted. -/
def size (tree : TargetTree) : Nat := tree.nodes.length - 1

/-- Whether there is no target but the root. -/
def isEmpty (tree : TargetTree) : Bool := tree.size = 0

/-- The name of a target. -/
def name? (tree : TargetTree) (handle : Nat) : Option String :=
  (tree.node? handle).map (·.name)

/-- The parent of a target. -/
def parent? (tree : TargetTree) (handle : Nat) : Option Nat :=
  (tree.node? handle).bind (·.parent)

/-- The targets still to visit, top of the stack first, each followed by those below it. At most
`fuel` targets are visited. -/
def visit (tree : TargetTree) : (fuel : Nat) → (stack : List Nat) → List Nat
  | 0, _ => []
  | _ + 1, [] => []
  | fuel + 1, handle :: stack =>
    match tree.node? handle with
    | some node => handle :: tree.visit fuel (node.children ++ stack)
    | none => tree.visit fuel stack

/-- A target and those below it, depth first. No target is visited twice, so the number of targets
bounds the walk. -/
def walk (tree : TargetTree) (start : Nat) : List Nat :=
  tree.visit tree.nodes.length [start]

/-- The first target with a name, the root included. -/
def findByName (tree : TargetTree) (name : String) : Option Nat :=
  (tree.walk 0).find? fun handle => tree.name? handle = some name

/-- The first target at or below `top` with a physical path. -/
def findByPath (tree : TargetTree) (top : Nat) (path : Bytes) : Option Nat :=
  (tree.walk top).find? fun handle => (tree.node? handle).bind (·.physicalPath) = some path

/-- The location code of a target, or else that of the nearest target above it that has one. Parents
come before their children, so the climb ends. -/
def locationCode (tree : TargetTree) (handle : Nat) : Option String :=
  match tree.node? handle with
  | none => none
  | some node =>
    match node.locationCode, node.parent with
    | some code, _ => some code
    | none, some parent => if parent < handle then tree.locationCode parent else none
    | none, none => none
termination_by handle

/-- The device path of a target. -/
def devicePath (tree : TargetTree) (handle : Nat) : Option String :=
  (tree.node? handle).bind (·.devicePath)

/-- The replaceable unit of a target. -/
def unitId (tree : TargetTree) (handle : Nat) : Option UInt32 :=
  (tree.node? handle).bind (·.unitId)

/-- The tree as conversions see it. -/
def toLookup (tree : TargetTree) : TargetLookup where
  root := 0
  findByPath := tree.findByPath
  locationCode := tree.locationCode
  devicePath := tree.devicePath
  unitId := tree.unitId

end TargetTree

end FirstFailure
