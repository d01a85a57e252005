import FirstFailure.Disk
/-!
# Processes

A process does one operation after another, each chosen by what the operations before it answered.
Processes may run at the same time: at every moment the next operation is that of any one of them,
and the files and the output are the same for all.
-/

namespace FirstFailure

/-- The disk and the output of running processes. -/
structure Session where
  disk : Disk
  output : String := ""
  errors : String := ""
  /-- How many names were asked for. -/
  named : Nat := 0
deriving Repr, DecidableEq

/-- How new names are made for scratch files: what stands between a given start and a given ending,
in a directory of a disk. As the names are numbered, any names at all may follow each other. -/
abbrev ScratchNaming := Nat → Disk → Place → String → String → String

/-- Serial numbers as new names, the first that is free. Among more numbers than there are items on
the disk, one is free. -/
def ScratchNaming.serial : ScratchNaming := fun _ disk directory start ending =>
  toString (((List.range (disk.items.length + 1)).find? fun number =>
    (disk.item? (directory ++ [start ++ toString number ++ ending])).isNone).getD 0)

/-- Something that is done at once. -/
inductive Operation where
  | read (path : String)
  | makeDirectories (path : String)
  /-- Write a scratch file in the directory of a path. -/
  | create (folder start ending : String) (content : Bytes)
  /-- Move a file to a path, in place of a file that may be there. -/
  | move (place : Place) (path : String)
  | remove (place : Place)
  | write (path : String) (content : Bytes)
  | print (line : String)
  | printError (line : String)

namespace Operation

/-- What an operation answers when it succeeds. -/
abbrev Answer : Operation → Type
  | read _ => Bytes
  | create .. => Place
  | makeDirectories _ | move .. | remove _ | write .. | print _ | printError _ => Unit

/-- A changed disk, or an error and the disk as it was. -/
def change {α : Type} (session : Session) :
    Except DiskError (α × Disk) → Except DiskError α × Session
  | .ok (answer, disk) => (.ok answer, { session with disk })
  | .error error => (.error error, session)

/-- What an operation answers, and what becomes of the session. The name of a scratch file may be
taken; then the file is not written. -/
def run (naming : ScratchNaming) (session : Session) :
    (operation : Operation) → Except DiskError operation.Answer × Session
  | read path => (session.disk.readFile path, session)
  | makeDirectories path =>
    let (result, disk) := session.disk.makeDirectories path
    (result, { session with disk })
  | create folder start ending content => change { session with named := session.named + 1 } do
    let directory ← session.disk.follow folder
    let name := naming session.named session.disk directory start ending
    let place := directory ++ [start ++ name ++ ending]
    return (place, ← session.disk.createAt place content)
  | move place path => change session do return ((), ← session.disk.moveFile place path)
  | remove place => (.ok (), { session with disk := session.disk.remove place })
  | write path content => change session do return ((), ← session.disk.writeFile path content)
  | print line => (.ok (), { session with output := session.output ++ line ++ "\n" })
  | printError line => (.ok (), { session with errors := session.errors ++ line ++ "\n" })

end Operation

/-- A result, or an operation and how to go on from its answer. -/
inductive Process (α : Type) where
  | ended (result : α)
  | operate (operation : Operation) (next : Except DiskError operation.Answer → Process α)

/-- Which of two processes moves next, at every moment: the first one where this is true. -/
abbrev Turns := Nat → Bool

/-- Which of several processes moves next: for each one its turns against those behind it, of which
the number is given. -/
abbrev Schedule := Nat → Turns

namespace Process

variable {α β : Type}

/-- One process and then another one. -/
def bind : Process α → (α → Process β) → Process β
  | ended result, next => next result
  | operate operation rest, next => operate operation fun answer => (rest answer).bind next

instance : Monad Process where
  pure := ended
  bind := bind

/-- One operation. -/
def perform (operation : Operation) : Process (Except DiskError operation.Answer) :=
  operate operation ended

/-- Run a process to its end. -/
def run (naming : ScratchNaming) : Process α → Session → α × Session
  | ended result, session => (result, session)
  | operate operation next, session =>
    let (answer, session) := operation.run naming session
    (next answer).run naming session

/-- The turns from the next moment on. -/
def later (turns : Turns) : Turns := fun moment => turns (moment + 1)

/-- The turns of a process until one of another process that is about to do an operation. -/
def interleave (operation : Operation)
    (next : Except DiskError operation.Answer → Turns → Process β → Process (α × β)) :
    Turns → Process β → Process (α × β)
  | turns, ended result => operate operation fun answer => next answer turns (ended result)
  | turns, operate other rest =>
    if turns 0 then operate operation fun answer => next answer (later turns) (operate other rest)
    else operate other fun answer => interleave operation next (later turns) (rest answer)

/-- Two processes at the same time. -/
def both : Process α → Turns → Process β → Process (α × β)
  | ended result, _, other => other.bind fun last => ended (result, last)
  | operate operation next, turns, other =>
    interleave operation (fun answer => (next answer).both) turns other

/-- Several processes at the same time; the results are in the order of the processes. -/
def all (schedule : Schedule) : List (Process α) → Process (List α)
  | [] => ended []
  | first :: rest =>
    (first.both (schedule rest.length) (all schedule rest)).bind fun (result, results) =>
      ended (result :: results)

end Process

end FirstFailure
