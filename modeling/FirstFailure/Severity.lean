/-!
# Severity of a reported error

The levels are ordered as they are listed, the least severe first, and their wire values grow with
them.
-/

namespace FirstFailure

/-- How bad an error is, as the boot engine reports it. -/
inductive Severity where
  /-- Not reported by any package; where the merge of a group starts. -/
  | undefined
  /-- Not seen by the customer. -/
  | recovered
  /-- Recovered, but seen by the customer. -/
  | predictive
  /-- Not recovered. -/
  | unrecoverable
deriving Repr, DecidableEq, Inhabited

namespace Severity

/-- The value of a level on the wire. -/
def raw : Severity → UInt8
  | undefined => 0x00
  | recovered => 0x10
  | predictive => 0x20
  | unrecoverable => 0x40

/-- The level of a wire value; a value of no level counts as the worst one. -/
def ofRaw (raw : UInt8) : Severity :=
  if raw = 0x00 then undefined
  else if raw = 0x10 then recovered
  else if raw = 0x20 then predictive
  else unrecoverable

/-- The name of a level in documents. -/
def name : Severity → String
  | undefined => "Undefined"
  | recovered => "Recovered"
  | predictive => "Predictive"
  | unrecoverable => "Unrecoverable"

/-- The name of a level in listings for people. -/
def label : Severity → String
  | undefined => "undefined"
  | recovered => "recovered"
  | predictive => "predictive"
  | unrecoverable => "unrecoverable"

/-- The levels, least severe first. -/
def all : List Severity := [undefined, recovered, predictive, unrecoverable]

instance : LT Severity where
  lt s t := s.ctorIdx < t.ctorIdx

instance : DecidableRel (α := Severity) (· < ·) :=
  fun s t => inferInstanceAs (Decidable (s.ctorIdx < t.ctorIdx))

/-- A more severe level has a greater value on the wire. -/
theorem lt_iff_raw_lt (s t : Severity) : s < t ↔ s.raw < t.raw := by
  cases s <;> cases t <;> decide

end Severity

/-- How the severities of a group's packages combine into one. -/
inductive SeverityMerge where
  /-- The most severe one wins. -/
  | worst
  /-- A severity below the running one replaces it, so nothing replaces `undefined`. -/
  | legacy
deriving Repr, DecidableEq, Inhabited

/-- Combine the running severity with the next one. -/
def SeverityMerge.merge : SeverityMerge → (running candidate : Severity) → Severity
  | worst, running, candidate => if running < candidate then candidate else running
  | legacy, running, candidate => if candidate < running then candidate else running

end FirstFailure
