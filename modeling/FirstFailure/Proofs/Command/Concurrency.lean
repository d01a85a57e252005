import FirstFailure.Proofs.Report.Receiving
/-!
# Processes that write files at the same time

A process that writes files may make the directory for attachments, create scratch files, move these
to where they belong, and write. What it may do next depends only on its own stage: whether that
directory is made, and which scratch files it has. So whatever others of its kind do in between
makes no difference, and two of them at the same time are one that writes the files of both.
-/

namespace FirstFailure

open Disk AttachmentFile

/-- How far a process is: whether the directory for attachments is made, and the contents that wait
in scratch files. -/
structure Stage where
  begun : Bool
  scratch : Multiset (Place × Bytes)

/-- Two processes at their stages. -/
def Stage.beside (first other : Stage) : Stage :=
  ⟨first.begun || other.begun, first.scratch + other.scratch⟩

theorem Stage.beside_comm (first other : Stage) : first.beside other = other.beside first := by
  rw [beside, beside, Bool.or_comm, add_comm]

namespace Operation

/-- What is known of an answer: a file that was read holds what was given, and a new name has the
given start and ending. -/
def Tells (bytes : String → Bytes) : (operation : Operation) → operation.Answer → Prop
  | .create _ start ending _, place => ∃ directory part,
      (∀ c ∈ part.toList, c.isAlphanum = true) ∧ place = directory ++ [start ++ part ++ ending]
  | .read path, content => content = bytes path
  | .makeDirectories _, _ | .move .., _ | .remove _, _ | .write .., _ | .print _, _
  | .printError _, _ => True

theorem tells_of_run {naming : ScratchNaming} {bytes : String → Bytes} {session after : Session}
    {operation : Operation} {answer : operation.Answer} (hnaming : naming.Alphanumeric)
    (hrun : operation.run naming session = (.ok answer, after))
    (hgives : operation.Gives bytes answer) : operation.Tells bytes answer := by
  cases operation with
  | create folder start ending content =>
    obtain ⟨directory, -, -, hplace, -⟩ := run_create_eq_ok hrun
    exact ⟨directory, _, hnaming _ _ _ _ _, hplace⟩
  | read path => exact hgives
  | makeDirectories | move | remove | write | print | printError => trivial

/-- What an operation may be at a stage, the files that it writes, and the stage to which it leads.
The directory for attachments is made before anything is written. -/
inductive Effect (folder? : Option String) :
    (operation : Operation) → operation.Answer → Stage → Multiset NamedFile → Stage → Prop where
  | read (path : String) (content : Bytes) (stage : Stage) :
    Effect folder? (.read path) content stage 0 stage
  | print (line : String) (stage : Stage) : Effect folder? (.print line) () stage 0 stage
  | makeDirectories {folder : String} (hfolder : folder? = some folder) (begun : Bool)
      (scratch : Multiset (Place × Bytes)) :
    Effect folder? (.makeDirectories folder) () ⟨begun, scratch⟩ 0 ⟨true, scratch⟩
  | create {place : Place} (hplace : IsScratchPlace place) (folder start ending : String)
      (content : Bytes) (scratch : Multiset (Place × Bytes)) :
    Effect folder? (.create folder start ending content) place ⟨true, scratch⟩ 0
      ⟨true, (place, content) ::ₘ scratch⟩
  | move {file : NamedFile} (hname : ¬IsScratchName file.name) (place : Place)
      (scratch : Multiset (Place × Bytes)) :
    Effect folder? (.move place file.path) () ⟨true, (place, file.content) ::ₘ scratch⟩ {file}
      ⟨true, scratch⟩
  | write {file : NamedFile} (hname : ¬IsScratchName file.name)
      (scratch : Multiset (Place × Bytes)) :
    Effect folder? (.write file.path file.content) () ⟨true, scratch⟩ {file} ⟨true, scratch⟩

/-- An operation may be done as well when others are at work. -/
theorem Effect.beside {folder? : Option String} {operation : Operation}
    {answer : operation.Answer} {stage later : Stage} {files : Multiset NamedFile}
    (h : Effect folder? operation answer stage files later) (other : Stage) :
    Effect folder? operation answer (stage.beside other) files (later.beside other) := by
  cases h with
  | read => exact .read _ _ _
  | print => exact .print _ _
  | makeDirectories hfolder => exact .makeDirectories hfolder _ _
  | create hplace =>
    rw [Stage.beside, Stage.beside, Multiset.cons_add]
    exact .create hplace _ _ _ _ _
  | move hname =>
    rw [Stage.beside, Stage.beside, Multiset.cons_add]
    exact .move hname _ _
  | write hname => exact .write hname _

end Operation

namespace Process

variable {α β : Type} {folder? : Option String} {bytes : String → Bytes}

/-- A process that writes files when its operations succeed, from a stage on, and ends as told. -/
inductive Writes (folder? : Option String) (bytes : String → Bytes) (ends : α → Stage → Prop) :
    Stage → Multiset NamedFile → Process α → Prop where
  | ended {result : α} {stage : Stage} (hends : ends result stage) :
    Writes folder? bytes ends stage 0 (.ended result)
  | operate {operation : Operation} {next : Except DiskError operation.Answer → Process α}
      {stage : Stage} {now rest : Multiset NamedFile} (later : operation.Answer → Stage)
      (heffect : ∀ answer, operation.Tells bytes answer →
        operation.Effect folder? answer stage now (later answer))
      (hnext : ∀ answer, operation.Tells bytes answer →
        Writes folder? bytes ends (later answer) rest (next (.ok answer))) :
    Writes folder? bytes ends stage (now + rest) (.operate operation next)

namespace Writes

variable {ends : α → Stage → Prop} {ends' : β → Stage → Prop} {stage stage' : Stage}
  {files files' : Multiset NamedFile} {first : Process α}

theorem bind {next : α → Process β} (h : Writes folder? bytes ends stage files first)
    (hnext : ∀ result later, ends result later →
      Writes folder? bytes ends' later files' (next result)) :
    Writes folder? bytes ends' stage (files + files') (first >>= next) := by
  induction h with
  | ended hends =>
    rw [zero_add]
    exact hnext _ _ hends
  | operate later heffect _ ih =>
    rw [add_assoc]
    exact .operate later heffect fun answer htells => ih answer htells

theorem perform {operation : Operation} (later : operation.Answer → Stage)
    (heffect : ∀ answer, operation.Tells bytes answer →
      operation.Effect folder? answer stage files (later answer)) :
    Writes folder? bytes
      (fun result own => ∃ answer, operation.Tells bytes answer ∧ result = .ok answer ∧
        own = later answer)
      stage files (Process.perform operation) := by
  rw [← add_zero files]
  exact .operate later heffect fun answer htells => .ended ⟨answer, htells, rfl, rfl⟩

theorem imp {ends' : α → Stage → Prop} (h : Writes folder? bytes ends stage files first)
    (himp : ∀ result later, ends result later → ends' result later) :
    Writes folder? bytes ends' stage files first := by
  induction h with
  | ended hends => exact .ended (himp _ _ hends)
  | operate later heffect _ ih => exact .operate later heffect ih

/-- Others at work make no difference. -/
theorem beside (h : Writes folder? bytes ends stage files first) (other : Stage) :
    Writes folder? bytes (fun result later => ∃ own, ends result own ∧ later = own.beside other)
      (stage.beside other) files first := by
  induction h with
  | ended hends => exact .ended ⟨_, hends, rfl⟩
  | operate later heffect _ ih =>
    exact .operate (fun answer => (later answer).beside other)
      (fun answer htells => (heffect answer htells).beside other) ih

/-- How two processes end together. -/
def Both (ends : α → Stage → Prop) (ends' : β → Stage → Prop) (results : α × β) (stage : Stage) :
    Prop :=
  ∃ own other, ends results.1 own ∧ ends' results.2 other ∧ stage = own.beside other

/-- Two processes at the same time, whichever of them moves: each step is one of a process alone, at
its own stage. -/
theorem both {second : Process β} (h : Writes folder? bytes ends stage files first)
    (h' : Writes folder? bytes ends' stage' files' second) (turns : Turns) :
    Writes folder? bytes (Both ends ends') (stage.beside stage') (files + files')
      (first.both turns second) := by
  induction h generalizing turns second stage' files' with
  | @ended result own hends =>
    have hlast : Writes folder? bytes (Both ends ends') (stage'.beside own) (files' + 0)
        (second >>= fun last => .ended (result, last)) := by
      refine (h'.beside own).bind ?_
      rintro last later ⟨other, hother, rfl⟩
      exact .ended ⟨own, other, hends, hother, other.beside_comm own⟩
    rw [add_zero, Stage.beside_comm] at hlast
    rw [zero_add]
    exact hlast
  | @operate operation next own now rest later heffect hrest ih =>
    -- The second process may move several times before the first one does.
    induction h' generalizing turns with
    | ended hends' =>
      rw [add_assoc]
      exact .operate (fun answer => (later answer).beside _)
        (fun answer htells => (heffect answer htells).beside _)
        fun answer htells => ih answer htells (.ended hends') turns
    | @operate other next' stage' now' rest' later' heffect' hrest' ih' =>
      rw [Process.both, interleave]
      split
      · rw [add_assoc]
        exact .operate (fun answer => (later answer).beside _)
          (fun answer htells => (heffect answer htells).beside _)
          fun answer htells => ih answer htells (.operate later' heffect' hrest') _
      · rw [add_left_comm, Stage.beside_comm]
        refine .operate (fun answer => own.beside (later' answer)) (fun answer htells => ?_)
          fun answer htells => ih' answer htells _
        rw [own.beside_comm]
        exact (heffect' answer htells).beside own

end Writes

/-! ## Runs -/

/-- The disk at a stage: as it was at first and, once the directory for attachments is made, about
to receive files. -/
inductive At (start prepared : Disk) (folder? : Option String) :
    Stage → Multiset NamedFile → Disk → Prop where
  | before : At start prepared folder? ⟨false, 0⟩ 0 start
  | begun {scratch : Multiset (Place × Bytes)} {files : Multiset NamedFile} {disk : Disk}
      (hthere : ∀ folder, folder? = some folder → prepared.HasDirectory folder)
      (h : Receiving prepared scratch files disk) :
    At start prepared folder? ⟨true, scratch⟩ files disk

variable {naming : ScratchNaming} {start prepared : Disk} {session after : Session}

/-- Making the directory for attachments once more makes no difference. -/
theorem At.makeDirectories {folder : String} {stage : Stage} {files : Multiset NamedFile}
    {disk made : Disk}
    (hprepared : ∀ folder, folder? = some folder → (start.makeDirectories folder).2 = prepared)
    (h : At start prepared folder? stage files disk) (hfolder : folder? = some folder)
    (hmade : disk.makeDirectories folder = (.ok (), made)) :
    At start prepared folder? ⟨true, stage.scratch⟩ files made := by
  cases h with
  | before =>
    have heq : made = prepared := by rw [← hprepared folder hfolder, hmade]
    subst heq
    refine .begun ?_ (.none made)
    rintro other hother
    cases hfolder.symm.trans hother
    exact hasDirectory_of_makeDirectories hmade
  | begun hthere h =>
    have hsame := makeDirectories_of_hasDirectory ((hthere folder hfolder).mono h.directories.1)
    rw [hmade] at hsame
    subst hsame
    exact .begun hthere h

/-- What one operation does to the disk at a stage. -/
theorem At.step {operation : Operation} {answer : operation.Answer} {stage later : Stage}
    {files now : Multiset NamedFile}
    (hprepared : ∀ folder, folder? = some folder → (start.makeDirectories folder).2 = prepared)
    (h : At start prepared folder? stage files session.disk)
    (heffect : operation.Effect folder? answer stage now later)
    (hrun : operation.run naming session = (.ok answer, after))
    (hnames : ((files + now).map (·.name)).Nodup) :
    At start prepared folder? later (files + now) after.disk := by
  have hnew : ∀ file, now = {file} → ∀ other ∈ files, other.name ≠ file.name := by
    rintro file rfl other hother heq
    rw [Multiset.map_add, Multiset.map_singleton, Multiset.nodup_add] at hnames
    exact Multiset.disjoint_left.mp hnames.2.2 (Multiset.mem_map_of_mem _ hother)
      (Multiset.mem_singleton.mpr heq)
  cases heffect with
  | read =>
    obtain ⟨-, rfl⟩ := Operation.run_read_eq_ok hrun
    rwa [add_zero]
  | print =>
    cases hrun
    rwa [add_zero]
  | makeDirectories hfolder =>
    rw [add_zero]
    exact h.makeDirectories hprepared hfolder (Operation.run_makeDirectories_eq_ok hrun).1
  | create hplace =>
    obtain ⟨directory, -, -, -, hnone, rfl⟩ := Operation.run_create_eq_ok hrun
    cases h with
    | begun hthere h =>
      rw [add_zero]
      exact .begun hthere (h.create hplace hnone _)
  | @move file hname place scratch =>
    obtain ⟨target, content, hfollow, hitem, htarget, rfl⟩ := Operation.run_move_eq_ok hrun
    cases h with
    | begun hthere h =>
      cases hitem.symm.trans (h.filled _ (Multiset.mem_cons_self _ _))
      rw [add_comm, Multiset.singleton_add]
      exact .begun hthere (h.forget.receive (h.directories.follow_iff.mpr hfollow) htarget hname
        (hnew file rfl))
  | @write file hname =>
    obtain ⟨hwrite, -⟩ := Operation.run_write_eq_ok hrun
    obtain ⟨place, hfollow, hitem, hafter⟩ := writeFile_eq_ok hwrite
    cases h with
    | begun hthere h =>
      rw [hafter, add_comm, Multiset.singleton_add]
      exact .begun hthere (h.receive (h.directories.follow_iff.mpr hfollow) hitem hname
        (hnew file rfl))

namespace Writes

variable {ends : α → Stage → Prop} {stage : Stage} {files written : Multiset NamedFile}
  {process : Process α}

/-- An undisturbed run ends as told. -/
theorem ends_run (hnaming : naming.Alphanumeric) (h : Writes folder? bytes ends stage files process)
    (hundisturbed : process.Undisturbed naming bytes session) :
    ∃ later, ends (process.run naming session).1 later := by
  induction h generalizing session with
  | ended hends => exact ⟨_, hends⟩
  | operate later heffect _ ih =>
    obtain ⟨answer, after, hrun, hgives, hnext⟩ := undisturbed_operate_iff.mp hundisturbed
    rw [Process.run, hrun]
    exact ih answer (Operation.tells_of_run hnaming hrun hgives) hnext

/-- An undisturbed run writes the files, and ends as told. -/
theorem run (hnaming : naming.Alphanumeric)
    (hprepared : ∀ folder, folder? = some folder → (start.makeDirectories folder).2 = prepared)
    (h : Writes folder? bytes ends stage files process)
    (hundisturbed : process.Undisturbed naming bytes session)
    (hat : At start prepared folder? stage written session.disk)
    (hnames : ((written + files).map (·.name)).Nodup) :
    ∃ later, ends (process.run naming session).1 later ∧
      At start prepared folder? later (written + files) (process.run naming session).2.disk := by
  induction h generalizing session written with
  | ended hends =>
    rw [add_zero]
    exact ⟨_, hends, hat⟩
  | @operate operation next own now rest later heffect _ ih =>
    obtain ⟨answer, after, hrun, hgives, hnext⟩ := undisturbed_operate_iff.mp hundisturbed
    have htells := Operation.tells_of_run hnaming hrun hgives
    rw [← add_assoc] at hnames ⊢
    have hfirst : ((written + now).map (·.name)).Nodup := by
      rw [Multiset.map_add, Multiset.nodup_add] at hnames
      exact hnames.1
    rw [Process.run, hrun]
    exact ih answer htells hnext (hat.step hprepared (heffect answer htells) hrun hfirst) hnames

end Writes

end Process

end FirstFailure
