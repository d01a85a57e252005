import FirstFailure.Package.Basic
/-!
# Packages grouped by log id

The groups stand in the order in which their log ids first appeared, and the packages of a group in
the order in which they were inserted. `Groups.insert` keeps both. `Groups.ofList` makes what
inserting the packages of a list one by one makes.
-/

namespace FirstFailure

/-- Packages by log id, in order of first appearance. -/
structure Groups where
  toList : List (UInt16 × List Package) := []
deriving Repr, DecidableEq, Inhabited

namespace Groups

/-- No packages. -/
def empty : Groups := {}

/-- Append a package to the group of its log id, or open a group for it at the end. -/
def insertInto (package : Package) : List (UInt16 × List Package) → List (UInt16 × List Package)
  | [] => [(package.logId, [package])]
  | (id, packages) :: rest =>
    if id = package.logId then (id, packages ++ [package]) :: rest
    else (id, packages) :: insertInto package rest

/-- Add a package behind those of its log id. -/
def insert (groups : Groups) (package : Package) : Groups :=
  ⟨insertInto package groups.toList⟩

/-- The packages of a log id, if there are any. -/
def get? (groups : Groups) (logId : UInt16) : Option (List Package) :=
  (groups.toList.find? (·.1 = logId)).map (·.2)

/-- Put a package in front of those of its log id, and its group in front of the others. -/
def prepend (package : Package) (groups : Groups) : Groups :=
  ⟨(package.logId, package :: (groups.get? package.logId).getD [])
    :: groups.toList.eraseP (·.1 = package.logId)⟩

/-- The groups of a list of packages. They are built from the last package to the first, so that a
package is put in front of its group and not behind it. -/
def ofList (packages : List Package) : Groups := packages.foldr prepend empty

/-- The log ids in order of first appearance. -/
def logIds (groups : Groups) : List UInt16 := groups.toList.map (·.1)

/-- The number of groups. -/
def size (groups : Groups) : Nat := groups.toList.length

/-- Whether there is no package. -/
def isEmpty (groups : Groups) : Bool := groups.toList.isEmpty

/-- The packages of all groups, group by group. -/
def packages (groups : Groups) : List Package := groups.toList.flatMap (·.2)

/-- The number of packages in all groups. -/
def packageCount (groups : Groups) : Nat := (groups.toList.map (·.2.length)).foldr (· + ·) 0

end Groups

end FirstFailure
