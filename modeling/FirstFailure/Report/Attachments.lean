import FirstFailure.Diagnostic.Entry
import FirstFailure.Process
import FirstFailure.Text.Hex
/-!
# Attachment files

The attachment of every entry goes into a file of its own in a scratch directory. The files are
then moved to an output directory, named after the log ids, or removed.
-/

namespace FirstFailure

/-- A file with the attachment of an entry. -/
structure AttachmentFile where
  logId : UInt16
  severity : Severity
  place : Place
deriving Repr, DecidableEq

/-- The log id of entries without one. -/
def defaultLogId : UInt16 := 0

namespace AttachmentFile

/-- How the names of scratch files start. -/
def namePrefix (logId : UInt16) : String := "ffdc-" ++ Hex.padded .lower 4 logId.toNat ++ "-"

/-- How the names of scratch files end. -/
def nameSuffix : String := ".bin"

/-- The name under which an attachment is kept. -/
def keptName (stem : String) (logId : UInt16) : String :=
  stem ++ "-slid-" ++ Hex.padded .lower 4 logId.toNat ++ ".bin"

/-- The attachment in a file. -/
def content (file : AttachmentFile) (disk : Disk) : Bytes :=
  match disk.item? file.place with
  | some (.file content) => content
  | _ => []

/-- Write the attachment of an entry to a scratch file in the directory of a path. -/
def create (folder : String) (entry : Entry) (attachment : Bytes) :
    Process (Except DiskError AttachmentFile) := do
  let logId := entry.logId.getD defaultLogId
  let place ← Process.perform (.create folder (namePrefix logId) nameSuffix attachment)
  return place.map fun place => ⟨logId, entry.severity, place⟩

/-- Remove files. -/
def discardAll : List AttachmentFile → Process Unit
  | [] => return
  | file :: rest => do
    let _ ← Process.perform (.remove file.place)
    discardAll rest

/-- Write the attachments of entries to scratch files, in the order of the entries. When that fails
the files already written are removed. -/
def createAll (folder : String) (created : List AttachmentFile) :
    Entries → Process (Except DiskError (List AttachmentFile))
  | [] => return .ok created
  | entry :: rest =>
    match entry.attachment with
    | none => createAll folder created rest
    | some attachment => do
      match ← create folder entry attachment with
      | .ok file => createAll folder (created ++ [file]) rest
      | .error error =>
        discardAll created
        return .error error

/-- Write the attachments of entries to scratch files in the directory of a path. -/
def createIn (folder : String) (entries : Entries) :
    Process (Except DiskError (List AttachmentFile)) :=
  createAll folder [] entries

/-- Move a file to a path. -/
def persist (file : AttachmentFile) (path : String) : Process (Except DiskError Unit) :=
  Process.perform (.move file.place path)

/-- Move files to a directory under the names that their log ids give; a later file takes the place
of an earlier one of that name. The result tells the paths in order. When a move fails the files
not yet moved are removed. -/
def persistAll (folder stem : String) :
    List AttachmentFile → Process (Except DiskError (List String))
  | [] => return .ok []
  | file :: rest => do
    let path := Disk.join folder (keptName stem file.logId)
    match ← file.persist path with
    | .ok _ => return (← persistAll folder stem rest).map (path :: ·)
    | .error error =>
      discardAll (file :: rest)
      return .error error

end AttachmentFile

end FirstFailure
