import FirstFailure.Package.Region
import FirstFailure.Response.Frame
/-!
# Contents of a response buffer

The framing of a buffer together with the packages of its region.
-/

namespace FirstFailure

/-- Why the contents of a buffer cannot be read. -/
inductive ContentsError where
  | frame (error : FrameError)
  | region (error : RegionError)
deriving Repr, DecidableEq

/-- The text of a contents error is that of its cause. -/
def ContentsError.message : ContentsError → String
  | frame error => error.message
  | region error => error.message

/-- The framing and the packages of a response. -/
structure Contents where
  frame : Frame
  groups : Groups
deriving Repr, DecidableEq

/-- Read a whole response; one without a region has no packages. -/
def Contents.read (buffer : Bytes) : Except ContentsError Contents := do
  let frame ← (Frame.read buffer true).mapError ContentsError.frame
  match frame.region with
  | none => return { frame, groups := .empty }
  | some region =>
    let groups ← (Groups.read buffer region).mapError ContentsError.region
    return { frame, groups }

end FirstFailure
