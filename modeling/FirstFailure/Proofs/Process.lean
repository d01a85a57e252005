import FirstFailure.Process
import FirstFailure.Proofs.Disk.Changes
import FirstFailure.Proofs.Text.Decimal
/-!
# Running processes

What operations have done when they succeed, how the operations of a process follow each other, and
when nothing goes wrong with them: every operation succeeds, and what is read is what was given.
-/

namespace FirstFailure

/-- New names have nothing but letters and digits between the start and the ending. -/
def ScratchNaming.Alphanumeric (naming : ScratchNaming) : Prop :=
  ∀ number disk directory start ending,
    ∀ c ∈ (naming number disk directory start ending).toList, c.isAlphanum = true

theorem ScratchNaming.serial_alphanumeric : serial.Alphanumeric := by
  intro number disk directory start ending c hc
  cases hdigit : c.isDigit with
  | true => rw [Char.isAlphanum, hdigit, Bool.or_true]
  | false => exact absurd hc (Decimal.not_mem_toString hdigit)

namespace Operation

variable {naming : ScratchNaming} {session after : Session} {place : Place} {content : Bytes}

theorem change_eq_ok {α : Type} {result : Except DiskError (α × Disk)} {answer : α}
    (h : change session result = (.ok answer, after)) :
    ∃ disk, result = .ok (answer, disk) ∧ after = { session with disk } := by
  cases result with
  | error error => cases h
  | ok changed =>
    cases h
    exact ⟨_, rfl, rfl⟩

theorem run_read_eq_ok {path : String}
    (h : (read path).run naming session = (.ok content, after)) :
    session.disk.readFile path = .ok content ∧ after = session := by
  rw [run, Prod.mk.injEq] at h
  exact ⟨h.1, h.2.symm⟩

/-- A scratch file is new, and in a directory. -/
theorem run_create_eq_ok {folder start ending : String}
    (h : (create folder start ending content).run naming session = (.ok place, after)) :
    ∃ directory, session.disk.follow folder = .ok directory ∧
      session.disk.item? directory = some .directory ∧
      place = directory
        ++ [start ++ naming session.named session.disk directory start ending ++ ending] ∧
      session.disk.item? place = none ∧ after = { session with
        disk := session.disk.set place (.file content), named := session.named + 1 } := by
  obtain ⟨disk, hchange, rfl⟩ := change_eq_ok h
  obtain ⟨directory, hfollow, hchange⟩ := Outcome.bind_eq_ok_iff.mp hchange
  obtain ⟨created, hcreate, hchange⟩ := Outcome.bind_eq_ok_iff.mp hchange
  cases hchange
  unfold Disk.createAt at hcreate
  split at hcreate
  next => cases hcreate
  next hnone =>
    obtain ⟨-, habove, rfl⟩ := Disk.writeAt_eq_ok hcreate
    rw [List.dropLast_concat] at habove
    exact ⟨directory, hfollow, habove, rfl, hnone, rfl⟩

theorem run_move_eq_ok {path : String} {u : Unit}
    (h : (move place path).run naming session = (.ok u, after)) :
    ∃ target content, session.disk.follow path = .ok target ∧
      session.disk.item? place = some (.file content) ∧
      (session.disk.remove place).item? target ≠ some .directory ∧
      after = { session with disk := (session.disk.remove place).set target (.file content) } := by
  obtain ⟨disk, hchange, rfl⟩ := change_eq_ok h
  obtain ⟨moved, hmove, hchange⟩ := Outcome.bind_eq_ok_iff.mp hchange
  cases hchange
  obtain ⟨target, hfollow, hmove⟩ := Outcome.bind_eq_ok_iff.mp hmove
  split at hmove
  next content hitem =>
    obtain ⟨htarget, -, rfl⟩ := Disk.writeAt_eq_ok hmove
    exact ⟨target, content, hfollow, hitem, htarget, rfl⟩
  next => cases hmove

theorem run_write_eq_ok {path : String} {u : Unit}
    (h : (write path content).run naming session = (.ok u, after)) :
    session.disk.writeFile path content = .ok after.disk ∧
      after = { session with disk := after.disk } := by
  obtain ⟨disk, hchange, rfl⟩ := change_eq_ok h
  obtain ⟨written, hwrite, hchange⟩ := Outcome.bind_eq_ok_iff.mp hchange
  cases hchange
  exact ⟨hwrite, rfl⟩

theorem run_makeDirectories_eq_ok {path : String} {u : Unit}
    (h : (makeDirectories path).run naming session = (.ok u, after)) :
    session.disk.makeDirectories path = (.ok (), after.disk) ∧
      after = { session with disk := after.disk } := by
  rcases hmake : session.disk.makeDirectories path with ⟨result, made⟩
  simp only [run, hmake] at h
  cases h
  exact ⟨rfl, rfl⟩

theorem output_change {α : Type} (result : Except DiskError (α × Disk)) :
    (change session result).2.output = session.output := by
  cases result with
  | error error => rfl
  | ok changed => rfl

theorem output_run {operation : Operation} (h : ∀ line, operation ≠ .print line) :
    (operation.run naming session).2.output = session.output := by
  cases operation with
  | print line => exact absurd rfl (h line)
  | create | move | write => exact output_change _
  | read | makeDirectories | remove | printError => rfl

end Operation

/-- What is read is what was given for the path. -/
def Operation.Gives (bytes : String → Bytes) : (operation : Operation) → operation.Answer → Prop
  | .read path, content => content = bytes path
  | .makeDirectories _, _ | .create .., _ | .move .., _ | .remove _, _ | .write .., _
  | .print _, _ | .printError _, _ => True

instance (bytes : String → Bytes) :
    (operation : Operation) → (answer : operation.Answer) →
      Decidable (operation.Gives bytes answer)
  | .read path, content => inferInstanceAs (Decidable (content = bytes path))
  | .makeDirectories _, _ | .create .., _ | .move .., _ | .remove _, _ | .write .., _
  | .print _, _ | .printError _, _ => inferInstanceAs (Decidable True)

namespace Process

variable {α β : Type} {naming : ScratchNaming} {bytes : String → Bytes} {session after : Session}

theorem run_bind (process : Process α) (next : α → Process β) :
    (process >>= next).run naming session
      = (next (process.run naming session).1).run naming (process.run naming session).2 := by
  induction process generalizing session with
  | ended result => rfl
  | operate operation rest ih => exact @ih _ (operation.run naming session).2

theorem run_perform (operation : Operation) :
    (perform operation).run naming session = operation.run naming session := rfl

/-! ## Quiet processes -/

/-- A process that prints nothing. -/
def Quiet : Process α → Prop
  | ended _ => True
  | operate operation next =>
    (∀ line, operation ≠ .print line) ∧ ∀ answer, (next answer).Quiet

theorem Quiet.bind {process : Process α} {next : α → Process β} (h : process.Quiet)
    (hnext : ∀ result, (next result).Quiet) : (process >>= next).Quiet := by
  induction process with
  | ended result => exact hnext result
  | operate operation rest ih => exact ⟨h.1, fun answer => ih answer (h.2 answer)⟩

theorem quiet_perform {operation : Operation} (h : ∀ line, operation ≠ .print line) :
    (perform operation).Quiet :=
  ⟨h, fun _ => trivial⟩

theorem Quiet.output_run {process : Process α} (h : process.Quiet) :
    (process.run naming session).2.output = session.output := by
  induction process generalizing session with
  | ended result => rfl
  | operate operation next ih =>
    rw [run, ih _ (h.2 _), Operation.output_run h.1]

/-! ## Undisturbed runs -/

/-- Every operation of a run succeeds, and what is read is what was given. -/
def Undisturbed (naming : ScratchNaming) (bytes : String → Bytes) : Process α → Session → Prop
  | ended _, _ => True
  | operate operation next, session =>
    match operation.run naming session with
    | (.ok answer, after) =>
      operation.Gives bytes answer ∧ (next (.ok answer)).Undisturbed naming bytes after
    | (.error _, _) => False

theorem undisturbed_operate_iff {operation : Operation}
    {next : Except DiskError operation.Answer → Process α} :
    (operate operation next).Undisturbed naming bytes session ↔
      ∃ answer after, operation.run naming session = (.ok answer, after) ∧
        operation.Gives bytes answer ∧ (next (.ok answer)).Undisturbed naming bytes after := by
  rw [Undisturbed]
  rcases operation.run naming session with ⟨result, after⟩
  cases result with
  | ok answer =>
    constructor
    · exact fun h => ⟨answer, after, rfl, h⟩
    · rintro ⟨_, _, heq, h⟩
      cases heq
      exact h
  | error error => simp

instance decidableUndisturbed (naming : ScratchNaming) (bytes : String → Bytes) :
    (process : Process α) → (session : Session) →
      Decidable (process.Undisturbed naming bytes session)
  | ended _, _ => inferInstanceAs (Decidable True)
  | operate operation next, session =>
    match h : operation.run naming session with
    | (.ok answer, after) =>
      have := decidableUndisturbed naming bytes (next (.ok answer)) after
      decidable_of_iff
        (operation.Gives bytes answer ∧ (next (.ok answer)).Undisturbed naming bytes after)
        (by rw [Undisturbed, h])
    | (.error _, _) => .isFalse (by rw [Undisturbed, h]; exact id)

theorem undisturbed_bind_iff {process : Process α} {next : α → Process β} :
    (process >>= next).Undisturbed naming bytes session ↔
      process.Undisturbed naming bytes session ∧
        (next (process.run naming session).1).Undisturbed naming bytes
          (process.run naming session).2 := by
  induction process generalizing session with
  | ended result => exact ⟨fun h => ⟨trivial, h⟩, fun h => h.2⟩
  | operate operation rest ih =>
    show (operate operation fun answer => rest answer >>= next).Undisturbed _ _ _ ↔ _
    rw [undisturbed_operate_iff, undisturbed_operate_iff]
    constructor
    · rintro ⟨answer, after, hrun, hgives, h⟩
      obtain ⟨hrest, hnext⟩ := ih _ |>.mp h
      refine ⟨⟨answer, after, hrun, hgives, hrest⟩, ?_⟩
      rw [run, hrun]
      exact hnext
    · rintro ⟨⟨answer, after, hrun, hgives, hrest⟩, hnext⟩
      rw [run, hrun] at hnext
      exact ⟨answer, after, hrun, hgives, ih _ |>.mpr ⟨hrest, hnext⟩⟩

end Process

end FirstFailure
