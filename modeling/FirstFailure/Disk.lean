import FirstFailure.Bytes
/-!
# Files

A disk maps places to directories and files. Places are reached by paths: names separated by
slashes, from the working directory or, with a slash in front, from the root. An operation on a path
first follows it, for which everything on the way has to be a directory.
-/

namespace FirstFailure

/-- A place: the names on the way from the working directory, or from the root, which is a name of
its own. -/
abbrev Place := List String

/-- What is at a place. -/
inductive Item where
  | directory
  | file (content : Bytes)
deriving Repr, DecidableEq

/-- Why an operation on files fails. -/
inductive DiskError where
  | notFound
  | alreadyExists
  | notADirectory
  | isADirectory
  | nameTooLong
  /-- A name has a character that no name may have. -/
  | badName
  /-- A file is not the text it should be. -/
  | notText
deriving Repr, DecidableEq

/-- The text of a failed operation. -/
def DiskError.message : DiskError → String
  | notFound => "No such file or directory (os error 2)"
  | alreadyExists => "File exists (os error 17)"
  | notADirectory => "Not a directory (os error 20)"
  | isADirectory => "Is a directory (os error 21)"
  | nameTooLong => "File name too long (os error 36)"
  | badName => "file name contained an unexpected NUL byte"
  | notText => "stream did not contain valid UTF-8"

/-- Everything on a disk but the directories that are always there. -/
structure Disk where
  items : List (Place × Item) := []
deriving Repr, DecidableEq

namespace Disk

/-- The name of the root directory. -/
def rootName : String := "/"

/-- Whether a place is the root, the working directory or above that. -/
def isAnchor (place : Place) : Bool := place = [rootName] || place.all (· = "..")

/-- What is at a place. -/
def item? (disk : Disk) (place : Place) : Option Item :=
  if isAnchor place then some .directory
  else (disk.items.find? (·.1 = place)).map (·.2)

/-- Whether a place holds a directory. -/
def isDirectory (disk : Disk) (place : Place) : Bool := disk.item? place = some .directory

/-- Put an item at a place. -/
def set (disk : Disk) (place : Place) (item : Item) : Disk :=
  ⟨disk.items.filter (·.1 ≠ place) ++ [(place, item)]⟩

/-- Empty a place. -/
def remove (disk : Disk) (place : Place) : Disk := ⟨disk.items.filter (·.1 ≠ place)⟩

/-- The directory above a place. -/
def parent (place : Place) : Place :=
  if place = [rootName] then place
  else if place.all (· = "..") then place ++ [".."]
  else place.dropLast

/-- The stretches of a text between slashes. -/
def segments : List Char → List (List Char)
  | [] => [[]]
  | c :: rest =>
    if c = '/' then [] :: segments rest
    else match segments rest with
      | first :: others => (c :: first) :: others
      | [] => [[c]]

/-- Whether a path starts at the root. -/
def isAbsolute (path : String) : Bool := path.toList.head? = some '/'

/-- Whether a path ends with a slash. -/
def endsWithSlash (path : String) : Bool := path.toList.getLast? = some '/'

/-- A path without the slashes at its end, unless nothing else is in it. -/
def withoutFinalSlashes (path : String) : String :=
  match path.toList.reverse.dropWhile (· = '/') with
  | [] => path
  | kept => String.ofList kept.reverse

/-- The names in a path. An empty name stands where a slash follows another or ends the path. -/
def pathNames (path : String) : List String :=
  (segments (if isAbsolute path then path.toList.drop 1 else path.toList)).map String.ofList

/-- Where a path starts. -/
def pathStart (path : String) : Place := if isAbsolute path then [rootName] else []

/-- The longest name, in bytes. -/
def maxNameLength : Nat := 255

/-- The longest path, in bytes. -/
def maxPathLength : Nat := 4095

/-- One step along a path, out of a directory. -/
def step (disk : Disk) (place : Place) (name : String) : Except DiskError Place :=
  match disk.item? place with
  | none => .error .notFound
  | some (.file _) => .error .notADirectory
  | some .directory =>
    if name = "" ∨ name = "." then .ok place
    else if name = ".." then .ok (parent place)
    else if maxNameLength < name.utf8ByteSize then .error .nameTooLong
    else .ok (place ++ [name])

/-- The place that a path leads to, whatever is there. -/
def follow (disk : Disk) (path : String) : Except DiskError Place :=
  if path.toList.contains '\x00' then .error .badName
  else if path = "" then .error .notFound
  else if maxPathLength < path.utf8ByteSize then .error .nameTooLong
  else (pathNames path).foldlM disk.step (pathStart path)

/-- The content of a file. -/
def readFile (disk : Disk) (path : String) : Except DiskError Bytes := do
  let place ← disk.follow path
  match disk.item? place with
  | none => .error .notFound
  | some .directory => .error .isADirectory
  | some (.file content) => .ok content

/-- The text in a file. -/
def readText (disk : Disk) (path : String) : Except DiskError String := do
  let content ← disk.readFile path
  match String.fromUTF8? ⟨content.toArray⟩ with
  | some text => .ok text
  | none => .error .notText

/-- Put a file at a place, in place of a file that may be there. -/
def writeAt (disk : Disk) (place : Place) (content : Bytes) : Except DiskError Disk :=
  match disk.item? place with
  | some .directory => .error .isADirectory
  | _ =>
    match disk.item? place.dropLast with
    | none => .error .notFound
    | some (.file _) => .error .notADirectory
    | some .directory => .ok (disk.set place (.file content))

/-- Make a file at a place where nothing is. -/
def createAt (disk : Disk) (place : Place) (content : Bytes) : Except DiskError Disk :=
  match disk.item? place with
  | some _ => .error .alreadyExists
  | none => disk.writeAt place content

/-- Move a file to the place of a path, in place of a file that may be there. -/
def moveFile (disk : Disk) (place : Place) (path : String) : Except DiskError Disk := do
  let target ← disk.follow path
  match disk.item? place with
  | some (.file content) => (disk.remove place).writeAt target content
  | _ => .error .notFound

/-- Write a file. A path that ends with a slash can only be a directory. -/
def writeFile (disk : Disk) (path : String) (content : Bytes) : Except DiskError Disk := do
  let place ← disk.follow (withoutFinalSlashes path)
  if endsWithSlash path then .error .isADirectory else disk.writeAt place content

/-- Make the directory of a path; the directory above it has to be there. -/
def makeDirectory (disk : Disk) (path : String) : Except DiskError Disk := do
  let place ← disk.follow (withoutFinalSlashes path)
  match disk.item? place with
  | none => .ok (disk.set place .directory)
  | some _ => .error .alreadyExists

/-- Whether a path leads to a directory. -/
def leadsToDirectory (disk : Disk) (path : String) : Bool :=
  match disk.follow path with
  | .ok place => disk.isDirectory place
  | .error _ => false

/-- A path and those of the directories that it passes through, the longest first. -/
def pathsTo (path : String) : List String :=
  let names := (pathNames path).filter fun name => name ≠ "" ∧ name ≠ "."
  let start := if isAbsolute path then "/" else ""
  path :: (List.range (names.length - 1)).reverse.map fun count =>
    start ++ "/".intercalate (names.take (count + 1))

/-- Make the directory of the first path. When the directory above it is missing, that of the second
path is made before, and so on. What was made stays when a later step fails. -/
def makeAll (disk : Disk) : List String → Except DiskError Unit × Disk
  | [] => (.ok (), disk)
  | path :: above =>
    match disk.makeDirectory path with
    | .ok disk => (.ok (), disk)
    | .error .notFound =>
      match disk.makeAll above with
      | (.error error, disk) => (.error error, disk)
      | (.ok (), disk) =>
        match disk.makeDirectory path with
        | .ok disk => (.ok (), disk)
        | .error error =>
          if disk.leadsToDirectory path then (.ok (), disk) else (.error error, disk)
    | .error error =>
      if disk.leadsToDirectory path then (.ok (), disk) else (.error error, disk)

/-- Make a directory and those on the way to it, unless they are there. A step up leads out of a
directory, so that one is made too. -/
def makeDirectories (disk : Disk) (path : String) : Except DiskError Unit × Disk :=
  disk.makeAll (pathsTo path)

/-- A path followed by a name. -/
def join (path name : String) : String :=
  if isAbsolute name then name
  else if path = "" ∨ endsWithSlash path then path ++ name
  else path ++ "/" ++ name

/-- The last name in a path, if that is not a step up. -/
def fileName? (path : String) : Option String :=
  match ((pathNames path).filter fun name => name ≠ "" ∧ name ≠ ".").getLast? with
  | some name => if name = ".." then none else some name
  | none => none

/-- A name without what follows its last dot; a dot in front does not count. -/
def withoutExtension (name : String) : String :=
  let tail := name.toList.reverse.takeWhile (· ≠ '.')
  let head := name.toList.reverse.drop tail.length
  match head with
  | _ :: c :: rest => String.ofList (c :: rest).reverse
  | _ => name

end Disk

end FirstFailure
