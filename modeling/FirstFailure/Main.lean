import FirstFailure.Command.Run
/-!
# The program

The parts of the disk that a command can see are read first: the places that its words lead to and
the directories above them. What the command made of them is then written back.
-/

namespace FirstFailure

/-- The path of a place. -/
def pathOfPlace (place : Place) : String :=
  match place with
  | [] => "."
  | name :: rest =>
    if name = Disk.rootName then "/" ++ "/".intercalate rest else "/".intercalate (name :: rest)

/-- The places on the way to a place, itself included. -/
def placesTo (place : Place) : List Place :=
  (List.range (place.length + 1)).map place.take

/-- The files that a command may read or write, and the directories it may use. -/
def Command.paths : Command → List String
  | .convert command =>
    command.inputs ++ command.output.toList ++ command.targets.toList
      ++ command.attachments.toList
      ++ match command.output with
        | some directory =>
          command.inputs.map fun input => Disk.join directory (ConvertCommand.outputName input)
        | none => []
  | .info input => [input]
  | .validate command => [command.input]

/-- The place that a path leads to if every name on the way is a directory. -/
def placeOfPath (path : String) : Place :=
  (Disk.pathNames path).foldl
    (fun place name =>
      if name = "" ∨ name = "." then place
      else if name = ".." then Disk.parent place
      else place ++ [name])
    (Disk.pathStart path)

/-- The places that a path passes through and those above them. -/
def placesOn (path : String) : List Place :=
  (Disk.pathsTo path).flatMap fun path => placesTo (placeOfPath path)

/-- Read what is at a place onto a disk. -/
def readPlace (disk : Disk) (place : Place) : IO Disk := do
  if Disk.isAnchor place then return disk
  try
    let content ← IO.FS.readBinFile (pathOfPlace place)
    return disk.set place (.file content.toList)
  catch
    | .noFileOrDirectory .. => return disk
    | .inappropriateType .. => return disk.set place .directory
    | error =>
      if (toString error).toLower.contains "directory" then return disk.set place .directory
      else return disk

/-- Write back what changed. Directories come before the files in them. -/
def writeBack (before after : Disk) : IO Unit := do
  for (place, item) in after.items do
    if before.item? place ≠ some item then
      match item with
      | .directory => IO.FS.createDirAll (pathOfPlace place)
      | .file content => IO.FS.writeBinFile (pathOfPlace place) ⟨content.toArray⟩

end FirstFailure

open FirstFailure in
def main (line : List String) : IO UInt32 := do
  let paths := ((Command.parse line).toOption.map Command.paths).getD []
  let places := (paths.flatMap placesOn).eraseDups
  let disk ← places.foldlM readPlace {}
  let outcome := Command.execute .plain line disk
  writeBack disk outcome.session.disk
  IO.print outcome.session.output
  IO.eprint outcome.session.errors
  return outcome.exitCode.toUInt32
