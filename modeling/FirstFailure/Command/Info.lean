import FirstFailure.Command.Session
import FirstFailure.Response.Contents
/-!
# Listing a response

The framing of a response and its packages, group by group.
-/

namespace FirstFailure

namespace Package

/-- The line of a package. -/
def infoLine (package : Package) : String :=
  "    seq " ++ toString package.sequenceId.toNat
    ++ " cmd " ++ Hex.padded .upper 2 package.commandClass.toNat
    ++ Hex.padded .upper 2 package.command.toNat
    ++ " rc 0x" ++ Hex.padded .upper 8 package.returnCode.toNat
    ++ " sev " ++ package.severity.label
    ++ " chip " ++ toString package.chipId.toNat
    ++ " data " ++ toString package.data.length ++ " bytes"

end Package

namespace Contents

/-- The lines of a group. -/
def groupLines (group : UInt16 × List Package) : List String :=
  ("  SLID 0x" ++ Hex.padded .lower 4 group.1.toNat ++ ": " ++ toString group.2.length
      ++ " packages")
    :: group.2.map Package.infoLine

/-- The lines of a response of the given length. -/
def infoLines (input : String) (len : Nat) (contents : Contents) : List String :=
  let frame := contents.frame
  let groups := contents.groups
  [
    "File:        " ++ input,
    "Size:        " ++ toString len ++ " bytes",
    "Status:      " ++ frame.status.primary.name ++ " / " ++ frame.status.secondary.name
      ++ (if frame.status.isSuccess then "" else " (failed)"),
    "Value:       " ++ toString frame.value.length ++ " bytes",
    "Header:      offset " ++ toString frame.headerOffset,
    "FFDC:        " ++ toString groups.packageCount ++ " packages, " ++ toString groups.size
      ++ " SLIDs"]
    ++ groups.toList.flatMap groupLines

end Contents

/-- List the response in a file. -/
def runInfo (input : String) : Action Unit := do
  let buffer ← Action.perform ("reading " ++ input) (.read input)
  let contents ← Action.get ("parsing response " ++ input) (fun error => [error.message])
    (Contents.read buffer)
  for line in contents.infoLines input buffer.length do
    Action.print line

end FirstFailure
