import FirstFailure.Proofs.Process
import Mathlib.Logic.Function.Basic
/-!
# Schedules and interleavings

A schedule fixes which of several processes moves next before any of them has answered. Nothing is
lost by that: whatever the operations answer, a run in which the processes move in any order is the
run of some schedule, and the run of a schedule is one in which they move in some order.
-/

namespace FirstFailure

namespace Process

variable {α : Type} {naming : ScratchNaming} {schedule : Schedule} {processes : List (Process α)}
  {results : List α} {session after : Session}

/-- Processes at the same time: again and again one of them does its next operation, until all of
them have ended. -/
inductive Interleaves (naming : ScratchNaming) :
    List (Process α) → Session → List α → Session → Prop where
  | ended (results : List α) (session : Session) :
    Interleaves naming (results.map .ended) session results session
  | operate {before behind : List (Process α)} {operation : Operation}
      {next : Except DiskError operation.Answer → Process α} {session after : Session}
      {results : List α}
      (h : Interleaves naming (before ++ next (operation.run naming session).1 :: behind)
        (operation.run naming session).2 results after) :
    Interleaves naming (before ++ .operate operation next :: behind) session results after

/-- A turn before other turns. -/
def sooner (first : Bool) (turns : Turns) : Turns
  | 0 => first
  | moment + 1 => turns moment

/-- Only the turns of the processes that are there count. -/
theorem all_congr {other : Schedule}
    (h : ∀ level < processes.length, schedule level = other level) :
    all schedule processes = all other processes := by
  induction processes with
  | nil => rfl
  | cons first rest ih =>
    rw [all, all, h _ (Nat.lt_succ_self _),
      ih fun level hlevel => h level (Nat.lt_succ_of_lt hlevel)]

/-- Another process in front of others, with turns of its own. -/
theorem all_cons_update {level : Nat} (hlevel : level = processes.length) (first : Process α)
    (turns : Turns) :
    all (Function.update schedule level turns) (first :: processes)
      = (first.both turns (all schedule processes)).bind fun (result, results) =>
          .ended (result :: results) := by
  have hrest : all (Function.update schedule level turns) processes = all schedule processes :=
    all_congr fun other hother =>
      Function.update_of_ne (Nat.ne_of_lt (hlevel ▸ hother)) _ _
  rw [all, hrest, ← hlevel, Function.update_self]

theorem all_ended (results : List α) : all schedule (results.map .ended) = .ended results := by
  induction results with
  | nil => rfl
  | cons result rest ih => rw [List.map_cons, all, ih]; rfl

theorem length_middle {before behind : List (Process α)} (process other : Process α) :
    (before ++ process :: behind).length = (before ++ other :: behind).length := by
  rw [List.length_append, List.length_append, List.length_cons, List.length_cons]

/-- There is a schedule for any choice of the process that moves first. -/
theorem exists_schedule (schedule : Schedule) (before behind : List (Process α))
    (operation : Operation) (next : Except DiskError operation.Answer → Process α) :
    ∃ chosen, all chosen (before ++ .operate operation next :: behind)
      = .operate operation fun answer => all schedule (before ++ next answer :: behind) := by
  induction before with
  | nil =>
    cases hbehind : all schedule behind with
    | ended results =>
      refine ⟨schedule, ?_⟩
      simp only [List.nil_append, all, hbehind]
      rfl
    | operate other others =>
      refine ⟨Function.update schedule behind.length (sooner true (schedule behind.length)), ?_⟩
      rw [List.nil_append, all_cons_update rfl, hbehind]
      simp only [List.nil_append, all, hbehind]
      rfl
  | cons first rest ih =>
    obtain ⟨chosen, hchosen⟩ := ih
    cases first with
    | ended result =>
      refine ⟨chosen, ?_⟩
      simp only [List.cons_append, all, hchosen]
      rfl
    | operate other others =>
      -- The process in front lets one behind it move, and then has its turns.
      let level := (rest ++ .operate operation next :: behind).length
      refine ⟨Function.update chosen level (sooner false (schedule level)), ?_⟩
      rw [List.cons_append, all_cons_update rfl, hchosen]
      simp only [List.cons_append, all, length_middle (next _) (.operate operation next)]
      rfl

/-- With a schedule either all processes have ended or one of them moves, and there is a schedule
for what is left. -/
theorem all_cases (schedule : Schedule) (processes : List (Process α)) :
    (∃ results, processes = results.map .ended ∧ all schedule processes = .ended results) ∨
    ∃ before operation next behind left, processes = before ++ .operate operation next :: behind ∧
      all schedule processes
        = .operate operation fun answer => all left (before ++ next answer :: behind) := by
  induction processes with
  | nil => exact .inl ⟨[], rfl, rfl⟩
  | cons first rest ih =>
    cases first with
    | ended result =>
      rcases ih with ⟨results, rfl, hall⟩ | ⟨before, operation, next, behind, left, rfl, hall⟩
      · exact .inl ⟨result :: results, rfl, all_ended (result :: results)⟩
      · refine .inr ⟨.ended result :: before, operation, next, behind, left, rfl, ?_⟩
        simp only [all, hall, List.cons_append]
        rfl
    | operate operation next =>
      rcases ih with ⟨results, rfl, hall⟩ | ⟨before, other, others, behind, left, hrest, hall⟩
      · refine .inr ⟨[], operation, next, results.map .ended, schedule, rfl, ?_⟩
        simp only [all, hall, List.nil_append]
        rfl
      -- Some process behind can move as well, so it is decided by the turn.
      cases hturn : schedule rest.length 0 with
      | true =>
        refine .inr ⟨[], operation, next, rest,
          Function.update schedule rest.length (later (schedule rest.length)), rfl, ?_⟩
        simp only [List.nil_append, all_cons_update rfl]
        simp only [all, hall, both, interleave, hturn]
        rfl
      | false =>
        refine .inr ⟨.operate operation next :: before, other, others, behind,
          Function.update left rest.length (later (schedule rest.length)), by rw [hrest]; rfl, ?_⟩
        have hlevel : ∀ process, rest.length = (before ++ process :: behind).length := by
          intro process
          rw [hrest, length_middle]
        simp only [List.cons_append, all_cons_update (hlevel _)]
        simp only [all, hall, both, interleave, hturn]
        rfl

/-- Processes move in some order exactly as a schedule tells. -/
theorem interleaves_iff : Interleaves naming processes session results after ↔
    ∃ schedule, (all schedule processes).run naming session = (results, after) := by
  constructor
  · intro h
    induction h with
    | ended results session => exact ⟨fun _ _ => true, by rw [all_ended]; rfl⟩
    | operate _ ih =>
      obtain ⟨schedule, hrun⟩ := ih
      obtain ⟨sooner, hall⟩ := exists_schedule schedule _ _ _ _
      refine ⟨sooner, ?_⟩
      rw [hall, run]
      exact hrun
  · rintro ⟨schedule, hrun⟩
    generalize hall : all schedule processes = process at hrun
    induction process generalizing schedule processes session with
    | ended last =>
      rcases all_cases schedule processes with ⟨results, rfl, hended⟩ | ⟨_, _, _, _, _, -, hmove⟩
      · rw [hended] at hall
        cases hall
        cases hrun
        exact .ended _ _
      · rw [hmove] at hall
        cases hall
    | operate operation next ih =>
      rcases all_cases schedule processes with
        ⟨results, rfl, hended⟩ | ⟨before, _, _, behind, left, rfl, hmove⟩
      · rw [hended] at hall
        cases hall
      · rw [hmove] at hall
        cases hall
        exact .operate (ih _ left rfl hrun)

end Process

end FirstFailure
