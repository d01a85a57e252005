import FirstFailure.Diagnostic.Entry
/-!
# Validation of entries

The structural rules that every entry keeps: it has a message, its user data ends with the only
position pair, no key is empty, and no callout lacks what it calls out.
-/

namespace FirstFailure

/-- A broken rule, with the index of the entry and, where there is one, the position in it. -/
inductive EntryFault where
  | emptyMessage (entry : Nat)
  | missingPosition (entry : Nat)
  | misplacedPosition (entry : Nat)
  | emptyKey (entry position : Nat)
  | emptyProcedure (entry position : Nat)
  | emptyEntityPath (entry position : Nat)
deriving Repr, DecidableEq

/-- The text of a fault. -/
def EntryFault.message : EntryFault → String
  | emptyMessage entry => "entry " ++ toString entry ++ ": empty message"
  | missingPosition entry =>
    "entry " ++ toString entry ++ ": user data does not end with " ++ positionKey
  | misplacedPosition entry =>
    "entry " ++ toString entry ++ ": " ++ positionKey
      ++ " appears before the end of the user data"
  | emptyKey entry position =>
    "entry " ++ toString entry ++ ": empty user data key at position " ++ toString position
  | emptyProcedure entry position =>
    "entry " ++ toString entry ++ ": procedure callout " ++ toString position
      ++ " has no procedure name"
  | emptyEntityPath entry position =>
    "entry " ++ toString entry ++ ": target callout " ++ toString position
      ++ " has an empty entity path"

namespace Entry

/-- Faults of the position pair: it has to be the last pair and may not occur before. -/
def positionFaults (index : Nat) (userData : UserData) : List EntryFault :=
  match userData.getLast? with
  | some (key, _) =>
    if key = positionKey then
      if userData.dropLast.any (fun pair => pair.1 = positionKey) then
        [.misplacedPosition index]
      else []
    else [.missingPosition index]
  | none => [.missingPosition index]

/-- Faults of the keys, the first of which is at the given position. -/
def keyFaults (index position : Nat) : UserData → List EntryFault
  | [] => []
  | (key, _) :: rest =>
    (if key = "" then [.emptyKey index position] else []) ++ keyFaults index (position + 1) rest

/-- Faults of a callout. -/
def calloutFault (index position : Nat) : Callout → List EntryFault
  | .procedure callout =>
    if callout.procedure = "" then [.emptyProcedure index position] else []
  | .target callout =>
    if callout.entityPath = [] then [.emptyEntityPath index position] else []
  | .hardware _ => []

/-- Faults of the callouts, the first of which is at the given position. -/
def calloutFaults (index position : Nat) : List Callout → List EntryFault
  | [] => []
  | callout :: rest =>
    calloutFault index position callout ++ calloutFaults index (position + 1) rest

/-- The faults of the entry with the given index. -/
def faults (index : Nat) (entry : Entry) : List EntryFault :=
  (if entry.message = "" then [.emptyMessage index] else [])
    ++ positionFaults index entry.userData
    ++ keyFaults index 0 entry.userData
    ++ calloutFaults index 0 entry.callouts

end Entry

namespace Entries

/-- Faults of entries, the first of which has the given index. -/
def faultsFrom (index : Nat) : Entries → List EntryFault
  | [] => []
  | entry :: rest => entry.faults index ++ faultsFrom (index + 1) rest

/-- The faults of all entries, entry by entry. Entries without faults are valid. -/
def faults (entries : Entries) : List EntryFault := faultsFrom 0 entries

end Entries

end FirstFailure
