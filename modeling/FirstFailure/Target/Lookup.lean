import FirstFailure.Bytes
/-!
# Looking up targets

What a conversion asks of a target tree. Every question may go unanswered.
-/

namespace FirstFailure

/-- A view of a target tree. Handles mean something to the view that gave them only. -/
structure TargetLookup where
  /-- The top of the tree. -/
  root : Nat
  /-- The first target at or below the given one that has the physical path. -/
  findByPath : (top : Nat) → (path : Bytes) → Option Nat
  /-- Where a target is. -/
  locationCode : Nat → Option String
  /-- The device path of a target. -/
  devicePath : Nat → Option String
  /-- The replaceable unit of a target. -/
  unitId : Nat → Option UInt32

/-- The view for systems without a target tree: nothing is found. -/
def TargetLookup.none : TargetLookup where
  root := 0
  findByPath _ _ := Option.none
  locationCode _ := Option.none
  devicePath _ := Option.none
  unitId _ := Option.none

end FirstFailure
