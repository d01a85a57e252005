import FirstFailure.Command.Session
import FirstFailure.Proofs.Process
/-!
# Running actions step by step

What each primitive action does to a session, and how the steps of an action follow each other: the
second runs on the session that the first leaves, unless the first fails.
-/

namespace FirstFailure

namespace Action

variable {α β ε : Type} {naming : ScratchNaming} {session after : Session}

/-! ## What an action does -/

theorem run_pure (a : α) : (pure a : Action α).run.run naming session = (.ok a, session) := rfl

theorem run_fail (error : CommandError) :
    (fail error : Action α).run.run naming session = (.error error, session) := rfl

theorem run_await (process : Process α) :
    (await process).run.run naming session
      = (.ok (process.run naming session).1, (process.run naming session).2) := by
  have hrun : (await process).run.run naming session
      = (process >>= fun result => .ended (.ok result)).run naming session := rfl
  rw [hrun, Process.run_bind]
  rfl

theorem run_print (line : String) :
    (print line).run.run naming session
      = (.ok (), { session with output := session.output ++ line ++ "\n" }) := rfl

theorem get_ok_bind (context : String) (causes : ε → List String) (a : α) (next : α → Action β) :
    get context causes (.ok a) >>= next = next a := rfl

theorem get_error_bind (context : String) (causes : ε → List String) (error : ε)
    (next : α → Action β) :
    get context causes (.error error) >>= next = fail ⟨context, causes error⟩ := rfl

theorem run_get_ok (context : String) (causes : ε → List String) (a : α) :
    (get context causes (.ok a)).run.run naming session = (.ok a, session) := rfl

theorem run_get_error (context : String) (causes : ε → List String) (error : ε) :
    (get context causes (.error error) : Action α).run.run naming session
      = (.error ⟨context, causes error⟩, session) := rfl

theorem run_perform (context : String) (operation : Operation) :
    (perform context operation).run.run naming session
      = ((operation.run naming session).1.mapError fun error => ⟨context, [error.message]⟩,
          (operation.run naming session).2) := rfl

theorem run_perform_of_ok {operation : Operation} {answer : operation.Answer} (context : String)
    (h : operation.run naming session = (.ok answer, after)) :
    (perform context operation).run.run naming session = (.ok answer, after) := by
  rw [run_perform, h]
  rfl

theorem run_perform_of_error {operation : Operation} {error : DiskError} (context : String)
    (h : operation.run naming session = (.error error, after)) :
    (perform context operation).run.run naming session
      = (.error ⟨context, [error.message]⟩, after) := by
  rw [run_perform, h]
  rfl

theorem bind_eq (first : Action α) (next : α → Action β) :
    (first >>= next).run = first.run >>= ExceptT.bindCont next := rfl

theorem run_bind (first : Action α) (next : α → Action β) :
    (first >>= next).run.run naming session
      = match first.run.run naming session with
        | (.ok a, after) => (next a).run.run naming after
        | (.error error, after) => (.error error, after) := by
  rw [bind_eq, Process.run_bind]
  rcases first.run.run naming session with ⟨result, after⟩
  cases result with
  | ok a => rfl
  | error error => rfl

theorem run_bind_of_ok {first : Action α} {next : α → Action β} {a : α}
    (h : first.run.run naming session = (.ok a, after)) :
    (first >>= next).run.run naming session = (next a).run.run naming after := by
  rw [run_bind, h]

theorem run_bind_of_error {first : Action α} {next : α → Action β} {error : CommandError}
    (h : first.run.run naming session = (.error error, after)) :
    (first >>= next).run.run naming session = (.error error, after) := by
  rw [run_bind, h]

/-- Reading a text is one question to the disk. -/
theorem run_readText (context path : String) :
    (readText context path).run.run naming session
      = ((session.disk.readText path).mapError fun error => ⟨context, [error.message]⟩,
          session) := by
  unfold readText Disk.readText
  cases hread : session.disk.readFile path with
  | error error =>
    have hrun : (Operation.read path).run naming session = (.error error, session) := by
      rw [Operation.run, hread]
    rw [run_bind_of_error (run_perform_of_error context hrun)]
    rfl
  | ok content =>
    have hrun : (Operation.read path).run naming session = (.ok content, session) := by
      rw [Operation.run, hread]
    rw [run_bind_of_ok (run_perform_of_ok context hrun)]
    simp only [bind, Except.bind]
    cases String.fromUTF8? ⟨content.toArray⟩ with
    | some text => rfl
    | none => rfl

theorem run_readText_of_ok {path text : String} (context : String)
    (h : session.disk.readText path = .ok text) :
    (readText context path).run.run naming session = (.ok text, session) := by
  rw [run_readText, h]
  rfl

theorem run_readText_of_error {path : String} {error : DiskError} (context : String)
    (h : session.disk.readText path = .error error) :
    (readText context path).run.run naming session
      = (.error ⟨context, [error.message]⟩, session) := by
  rw [run_readText, h]
  rfl

/-! ## Loops -/

/-- A loop whose steps succeed and leave the disk alone does so too. -/
theorem run_forIn_of_ok {body : α → Action (ForInStep PUnit)}
    (h : ∀ item session, ∃ after, (body item).run.run naming session = (.ok (.yield ⟨⟩), after) ∧
      after.disk = session.disk) (items : List α) (session : Session) :
    ∃ after,
      (forIn items PUnit.unit fun item _ => body item).run.run naming session
        = (.ok ⟨⟩, after) ∧
      after.disk = session.disk := by
  induction items generalizing session with
  | nil => exact ⟨session, run_pure _, rfl⟩
  | cons item rest ih =>
    obtain ⟨mid, hitem, hmid⟩ := h item session
    obtain ⟨after, hrest, hafter⟩ := ih mid
    refine ⟨after, ?_, hafter.trans hmid⟩
    rw [List.forIn_cons, run_bind_of_ok hitem]
    exact hrest

/-! ## Undisturbed runs -/

section

variable {bytes : String → Bytes}

theorem undisturbed_first {first : Action α} {next : α → Action β}
    (h : (first >>= next).run.Undisturbed naming bytes session) :
    first.run.Undisturbed naming bytes session :=
  (Process.undisturbed_bind_iff.mp h).1

theorem undisturbed_next {first : Action α} {next : α → Action β} {a : α}
    (h : (first >>= next).run.Undisturbed naming bytes session)
    (hfirst : first.run.run naming session = (.ok a, after)) :
    (next a).run.Undisturbed naming bytes after := by
  rw [bind_eq, Process.undisturbed_bind_iff, hfirst] at h
  exact h.2

/-- An operation of an undisturbed run has an answer. -/
theorem run_perform_of_undisturbed {context : String} {operation : Operation}
    (h : (perform context operation).run.Undisturbed naming bytes session) :
    ∃ answer after, operation.run naming session = (.ok answer, after) ∧
      operation.Gives bytes answer ∧
      (perform context operation).run.run naming session = (.ok answer, after) := by
  obtain ⟨answer, after, hrun, hgives, -⟩ := Process.undisturbed_operate_iff.mp h
  exact ⟨answer, after, hrun, hgives, run_perform_of_ok context hrun⟩

end

/-! ## Failure for certain -/

/-- An action that ends in a failure on every session. -/
def Fails (action : Action α) : Prop :=
  ∀ naming session, ∃ error after, action.run.run naming session = (.error error, after)

theorem fails_fail (error : CommandError) : Fails (fail error : Action α) :=
  fun _ session => ⟨error, session, run_fail error⟩

/-- What is followed by a failure fails, whatever it does itself. -/
theorem fails_bind {first : Action α} {next : α → Action β} (h : ∀ a, Fails (next a)) :
    Fails (first >>= next) := by
  intro naming session
  rcases hfirst : first.run.run naming session with ⟨result, after⟩
  cases result with
  | error error => exact ⟨error, after, run_bind_of_error hfirst⟩
  | ok a =>
    obtain ⟨error, last, hnext⟩ := h a naming after
    exact ⟨error, last, (run_bind_of_ok hfirst).trans hnext⟩

end Action

end FirstFailure
