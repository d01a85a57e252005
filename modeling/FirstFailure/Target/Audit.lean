import FirstFailure.Target.Document
import FirstFailure.Target.HexPath
/-!
# Defects of a document that its shape does not show

Names of siblings differ, physical paths are paths, and no path is used twice in the tree, whatever
its spelling. The defects are listed in the order of a walk from the top.
-/

namespace FirstFailure

/-- What is wrong with a target. -/
inductive TargetDefect where
  /-- An earlier sibling has the same name. -/
  | duplicateName
  /-- The text of the path spells none. -/
  | invalidPath (text : String) (fault : HexPath.Fault)
  /-- An earlier target, known by its names from the top, has the same path. -/
  | pathInUse (text : String) (owner : String)
deriving Repr, DecidableEq

/-- The text of a defect. -/
def TargetDefect.message : TargetDefect → String
  | duplicateName => "duplicate sibling name"
  | invalidPath text fault => "invalid physical path '" ++ text ++ "': " ++ fault.message
  | pathInUse text owner => "physical path " ++ text ++ " already used by " ++ owner

/-- A defect and the target that has it, known by its names from the top. -/
structure TargetIssue where
  names : String
  defect : TargetDefect
deriving Repr, DecidableEq

/-- The text of an issue with its place. -/
def TargetIssue.text (issue : TargetIssue) : String :=
  issue.names ++ ": " ++ issue.defect.message

namespace TargetDocument

/-- The paths met so far, each with the first target that has it. -/
abbrev PathOwners := List (Bytes × String)

/-- The first target that has a path. -/
def owner? (owners : PathOwners) (path : Bytes) : Option String :=
  (owners.find? (·.1 = path)).map (·.2)

/-- The issues of a target's own path, and the owners with that path. -/
def auditPath (owners : PathOwners) (names : String) : Option String → List TargetIssue × PathOwners
  | none => ([], owners)
  | some text =>
    match HexPath.parse text with
    | .error fault => ([⟨names, .invalidPath text fault⟩], owners)
    | .ok path =>
      match owner? owners path with
      | some owner => ([⟨names, .pathInUse text owner⟩], owners)
      | none => ([], owners ++ [(path, names)])

mutual

/-- The issues of a target and those below it. `above` is how the parent is known and `siblings` are
the names of the earlier children of the parent. -/
def auditTarget (owners : PathOwners) (above : String) (siblings : List String) :
    TargetSpec → List TargetIssue × PathOwners
  | ⟨name, path, _, _, _, children⟩ =>
    let names := above ++ "/" ++ name
    let naming := if siblings.contains name then [⟨names, .duplicateName⟩] else []
    let own := auditPath owners names path
    let below := auditAll own.2 names [] children
    (naming ++ own.1 ++ below.1, below.2)

/-- The issues of several children of one parent and of those below them. -/
def auditAll (owners : PathOwners) (above : String) (siblings : List String) :
    List TargetSpec → List TargetIssue × PathOwners
  | [] => ([], owners)
  | target :: rest =>
    let first := auditTarget owners above siblings target
    let others := auditAll first.2 above (siblings ++ [target.name]) rest
    (first.1 ++ others.1, others.2)

end

/-- The issues of a document. -/
def audit (document : TargetDocument) : List TargetIssue :=
  (auditAll [] "" [] document.targets).1

end TargetDocument

end FirstFailure
