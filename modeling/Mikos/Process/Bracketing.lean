import Mikos.Process.Steps

/-!
# Forks and exits as brackets

As long as no process parks, processes come and go like brackets: a child that exits gives the
place back to the process that made it, as it was when it did.  Beside the kernel a run keeps
the kernels of the calls to `clone` that are still open.
-/

namespace Mikos.Process
open Library Network
namespace Kernel
variable {machine : Machine} {kernel kernel' origin : Kernel} {opened : List Kernel}
  {outcome : Outcome}

/-! ## Records of open calls -/

/-- No process is parked. -/
structure Unparked (suspended : Suspended) : Prop where
  waits : suspended.background.used = true → suspended.background.wait = .none
  background : ¬ SnapshotAllocation.Valid suspended.background.snapshot
  interactiveChild : suspended.interactiveChild.used = false

/-- The ancestors of a process whose parent and older ancestors are given. -/
def ancestors (suspended : Suspended) : List (SuspendedParent × DescriptorTable) :=
  if suspended.parent.active then
    (suspended.parent, suspended.parentDescriptors) :: suspended.nested
  else []

/-- The parent's record is that of the process that called `clone`; only signals may have been
added to it. -/
structure Recorded (kernel origin : Kernel) : Prop where
  active : kernel.suspended.parent.active = true
  context : ∃ added, kernel.suspended.parent.toContext =
    { origin.context with
      signals.pending := origin.context.signals.pending ||| added }
  descriptors : kernel.suspended.parentDescriptors = origin.descriptors
  childPid : kernel.suspended.parent.childPid = kernel.context.pid
  pid : kernel.context.pid = origin.nextPid
  nested : kernel.suspended.nested = ancestors origin.suspended

/-- The records are those of the open calls. -/
def Bracketed : Kernel → List Kernel → Prop
  | kernel, [] => kernel.suspended.parent.active = false ∧ kernel.suspended.nested = []
  | kernel, origin :: opened => Recorded kernel origin ∧ Bracketed origin opened

section
variable (bracketed : Bracketed kernel opened)
include bracketed

theorem Bracketed.congr
    (active : kernel'.suspended.parent.active = kernel.suspended.parent.active)
    (context : ∃ added, kernel'.suspended.parent.toContext =
      { kernel.suspended.parent.toContext with
        signals.pending := kernel.suspended.parent.signals.pending ||| added })
    (descriptors : kernel'.suspended.parentDescriptors = kernel.suspended.parentDescriptors)
    (childPid : kernel'.suspended.parent.childPid = kernel.suspended.parent.childPid)
    (pid : kernel'.context.pid = kernel.context.pid)
    (nested : kernel'.suspended.nested = kernel.suspended.nested) : Bracketed kernel' opened := by
  cases opened with
  | nil => exact ⟨active.trans bracketed.1, nested.trans bracketed.2⟩
  | cons origin opened =>
    obtain ⟨recorded, rest⟩ := bracketed
    obtain ⟨earlier, same⟩ := recorded.context
    obtain ⟨added, context⟩ := context
    refine ⟨⟨active.trans recorded.active, ⟨earlier ||| added, ?_⟩,
      descriptors.trans recorded.descriptors, ?_, pid.trans recorded.pid,
      nested.trans recorded.nested⟩, rest⟩
    · rw [context, same, UInt64.or_assoc]
    · rw [childPid, pid]
      exact recorded.childPid

theorem Bracketed.of_same (parent : kernel'.suspended.parent = kernel.suspended.parent)
    (descriptors : kernel'.suspended.parentDescriptors = kernel.suspended.parentDescriptors)
    (nested : kernel'.suspended.nested = kernel.suspended.nested)
    (pid : kernel'.context.pid = kernel.context.pid) : Bracketed kernel' opened :=
  bracketed.congr (by rw [parent]) ⟨0, by simp [parent]⟩ descriptors (by rw [parent]) pid nested

theorem Bracketed.background {background : ParkedBackground} :
    Bracketed { kernel with suspended.background := background } opened :=
  bracketed.of_same rfl rfl rfl rfl

theorem Bracketed.of_inactive (idle : kernel.suspended.parent.active = false) :
    opened = [] ∧ kernel.suspended.nested = [] := by
  cases opened with
  | nil => exact ⟨rfl, bracketed.2⟩
  | cons origin opened =>
    rw [bracketed.1.active] at idle
    cases idle

end

/-! ## Steps -/

theorem pending_queue (signals : SignalState) (signal : Nat) :
    ∃ added, signals.queue signal = { signals with pending := signals.pending ||| added } := by
  rw [SignalState.queue]
  split
  · exact ⟨_, rfl⟩
  · exact ⟨0, by simp⟩

section
variable (unparked : Unparked kernel.suspended)
include unparked

theorem Unparked.not_ready : kernel.backgroundReady = false := by
  rw [backgroundReady]
  cases used : kernel.suspended.background.used with
  | false => rfl
  | true => simp [unparked.waits used]

theorem Unparked.cannot_resume : kernel.interactiveChildCanResume = false := by
  rw [interactiveChildCanResume]
  simp [unparked.interactiveChild]

theorem Quiet.brackets (quiet : Quiet machine kernel kernel') :
    Unparked kernel'.suspended ∧ ∀ {opened}, Bracketed kernel opened → Bracketed kernel' opened := by
  cases quiet with
  | attempt attempt =>
    cases attempt with
    | channels move => exact ⟨unparked, fun bracketed => bracketed.of_same rfl rfl rfl rfl⟩
    | parksBackground refused =>
      cases refused with
      | stays => exact ⟨unparked, id⟩
      | refused free snapshot =>
        refine ⟨⟨fun used => (Bool.false_ne_true used).elim, ?_, unparked.interactiveChild⟩,
          fun bracketed => bracketed.background⟩
        rcases snapshot with same | invalid
        · exact same ▸ unparked.background
        · exact invalid ▸ SnapshotAllocation.not_valid_invalid
    | parksInteractive refused =>
      cases refused with
      | stays => exact ⟨unparked, id⟩
      | refused unused =>
        exact ⟨⟨unparked.waits, unparked.background, rfl⟩,
          fun bracketed => bracketed.of_same rfl rfl rfl rfl⟩
    | resumesBackground refused =>
      cases refused with
      | stays => exact ⟨unparked, id⟩
      | refused ready idle refuses => exact absurd ready (by simp [unparked.not_ready])
    | resumesInteractive refused =>
      cases refused with
      | stays => exact ⟨unparked, id⟩
      | refused ready idle refuses => exact absurd ready (by simp [unparked.cannot_resume])
  | runs move => exact ⟨unparked, fun bracketed => bracketed.of_same rfl rfl rfl move.context.pid⟩
  | @signalsParent signal =>
    obtain ⟨added, queued⟩ := pending_queue kernel.suspended.parent.signals signal
    exact ⟨{ unparked with }, fun bracketed =>
      bracketed.congr rfl ⟨added, by rw [queued]⟩ rfl rfl rfl rfl⟩

theorem Quiets.brackets (quiets : Quiets machine kernel kernel') :
    Unparked kernel'.suspended ∧ ∀ {opened}, Bracketed kernel opened → Bracketed kernel' opened := by
  induction quiets with
  | refl => exact ⟨unparked, id⟩
  | tail _ quiet ih =>
    obtain ⟨between, earlier⟩ := ih
    obtain ⟨later, next⟩ := quiet.brackets between
    exact ⟨later, next ∘ earlier⟩

end

/-- The open calls after a step. -/
def track (opened : List Kernel) (kernel : Kernel) : Switch → List Kernel
  | .forks => kernel :: opened
  | .ends => opened.tail
  | _ => opened

/-- The process that called `clone` goes on behind the call, with the number of its child, as it
was when it made the call; and so are the records of its ancestors. -/
structure Restored (origin : Kernel) (child : Nat) (kernel' : Kernel) : Prop where
  context : ∃ added, kernel'.context =
    { origin.context with
      frame := (origin.context.frame.setResult (UInt32.ofNat child)).advance
      signals.pending := origin.context.signals.pending ||| added ||| SignalState.bit signalChild }
  descriptors : kernel'.descriptors = origin.descriptors
  active : kernel'.suspended.parent.active = origin.suspended.parent.active
  parent : origin.suspended.parent.active = true →
    kernel'.suspended.parent = origin.suspended.parent ∧
      kernel'.suspended.parentDescriptors = origin.suspended.parentDescriptors
  nested : kernel'.suspended.nested = origin.suspended.nested

theorem reinstateAncestor_ancestors {suspended older : Suspended} (context : Context)
    (idle : suspended.parent.active = false) (nested : suspended.nested = ancestors older)
    (alone : older.parent.active = false → older.nested = []) :
    let reinstated := suspended.reinstateAncestor context
    reinstated.parent.active = older.parent.active ∧
      (older.parent.active = true → reinstated.parent = older.parent ∧
        reinstated.parentDescriptors = older.parentDescriptors) ∧
      reinstated.nested = older.nested := by
  rw [Suspended.reinstateAncestor]
  cases active : older.parent.active with
  | false =>
    have empty : suspended.nested = [] := by rw [nested, ancestors, active]; rfl
    rw [if_pos empty]
    exact ⟨idle, fun active => (Bool.false_ne_true active).elim, empty.trans (alone active).symm⟩
  | true =>
    have stack : suspended.nested = (older.parent, older.parentDescriptors) :: older.nested := by
      rw [nested, ancestors, if_pos active]
    rw [if_neg (by rw [stack]; simp), Suspended.popAncestor]
    simp only [Suspended.captureBackground, stack]
    exact ⟨active, fun _ => ⟨trivial, trivial⟩, trivial⟩

theorem alone_of_bracketed (bracketed : Bracketed kernel opened) :
    kernel.suspended.parent.active = false → kernel.suspended.nested = [] :=
  fun idle => (bracketed.of_inactive idle).2

theorem ends_restored {arena : SnapshotArena} (recorded : Recorded kernel origin)
    (bracketed : Bracketed origin opened) (regular : kernel.suspended.parent.Regular) :
    Restored origin kernel.context.pid
      (kernel.leaving.adoptParent machine memory arena status true true).reinstated := by
  obtain ⟨added, context⟩ := recorded.context
  have parent : kernel.leaving.suspended.parent = kernel.suspended.parent := by rw [leaving_eq]
  have table : kernel.leaving.suspended.parentDescriptors = origin.descriptors := by
    rw [← recorded.descriptors, leaving_eq]
  have nested : kernel.leaving.suspended.nested = ancestors origin.suspended := by
    rw [← recorded.nested, leaving_eq]
  have saved := regular.saved.trans recorded.active
  obtain ⟨-, idle⟩ := @retiredParent_regular kernel.leaving (parent ▸ saved) status true
  have frame : parentFrame kernel.suspended.parent true =
      (origin.context.frame.setResult (UInt32.ofNat kernel.context.pid)).advance := by
    have same : kernel.suspended.parent.frame = origin.context.frame := by rw [context]
    rw [parentFrame, if_pos rfl, same, recorded.childPid]
  have signals : kernel.suspended.parent.signals.queue signalChild =
      { origin.context.signals with
        pending := origin.context.signals.pending ||| added ||| SignalState.bit signalChild } := by
    rw [SignalState.queue, if_pos (by decide), context]
  generalize retired : kernel.leaving.retiredParent status true = gone at idle
  have older := @reinstateAncestor_ancestors
    { kernel.leaving.suspended with parent := gone, parentDescriptors := .closed }
    origin.suspended
  rw [adoptParent_eq, reinstated]
  obtain ⟨active, same, older⟩ := older _ idle nested (alone_of_bracketed bracketed)
  rw [retired]
  refine ⟨⟨added, ?_⟩, table, active, same, older⟩
  rw [parent, if_pos rfl, frame, signals, context]

theorem Restored.bracketed (restored : Restored origin child kernel')
    (bracketed : Bracketed origin opened) : Bracketed kernel' opened := by
  obtain ⟨added, context⟩ := restored.context
  have pid : kernel'.context.pid = origin.context.pid := by rw [context]
  cases active : origin.suspended.parent.active with
  | false =>
    obtain ⟨rfl, nested⟩ := bracketed.of_inactive active
    exact ⟨restored.active.trans active, restored.nested.trans nested⟩
  | true =>
    obtain ⟨parent, table⟩ := restored.parent active
    exact bracketed.congr restored.active ⟨0, by simp [parent]⟩ table (by rw [parent]) pid
      restored.nested

theorem ends_unparked {arena : SnapshotArena} (unparked : Unparked kernel.suspended) :
    Unparked
      (kernel.leaving.adoptParent machine memory arena status true true).reinstated.suspended := by
  have left : Unparked kernel.leaving.suspended := by
    rw [leaving, forgetBackground]
    split
    · exact ⟨fun used => (Bool.false_ne_true used).elim, unparked.background,
        unparked.interactiveChild⟩
    · exact { unparked with }
  rw [adoptParent_eq, reinstated]
  dsimp only
  rw [Suspended.reinstateAncestor]
  split
  · exact { left with }
  · rw [Suspended.popAncestor]
    split
    · exact ⟨fun _ => rfl, left.background, left.interactiveChild⟩
    · exact ⟨fun _ => rfl, left.background, left.interactiveChild⟩

theorem stackAncestor_ancestors {suspended suspended' : Suspended}
    (stacking : suspended.stackAncestor = some suspended') :
    suspended'.nested = ancestors suspended ∧ (Unparked suspended → Unparked suspended') := by
  rw [Suspended.stackAncestor] at stacking
  split at stacking
  · cases stacking
  rename_i fits
  cases stacking
  simp only [not_or, Bool.not_eq_false] at fits
  refine ⟨(if_pos fits.1).symm, fun unparked => ⟨fun used => (Bool.false_ne_true used).elim, ?_,
    unparked.interactiveChild⟩⟩
  exact SnapshotAllocation.not_valid_invalid

section
variable (sound : Sound machine kernel leaked) (unparked : Unparked kernel.suspended)
  (bracketed : Bracketed kernel opened)
include sound unparked bracketed

theorem forks_brackets {suspended : Suspended}
    (accepts : CloneAccepts kernel.context.frame flags stack childTid)
    (room : kernel.CloneRoom suspended) (suspends : Suspends machine
      { kernel with suspended, nextPid := wrap 32 (kernel.nextPid + 1) }
      (cloneStack kernel.context.frame stack) kernel.nextPid forked) :
    Unparked (forked.becomeChild flags childTid).suspended ∧
      Recorded (forked.becomeChild flags childTid) kernel := by
  obtain ⟨record, suspendedAs, -⟩ := forks_exchanged sound.stocked sound.bounded accepts room suspends
  have parent := suspendedAs.parent
  have shape : forked.suspended.nested = suspended.nested ∧
      forked.suspended.background = suspended.background ∧
      forked.suspended.interactiveChild = suspended.interactiveChild := by
    cases suspends
    exact ⟨rfl, rfl, rfl⟩
  have older : suspended.nested = ancestors kernel.suspended ∧ Unparked suspended := by
    rcases room with ⟨idle, rfl⟩ | ⟨-, stacking⟩
    · refine ⟨?_, unparked⟩
      rw [(bracketed.of_inactive idle).2, ancestors, idle]
      rfl
    · exact ⟨(stackAncestor_ancestors stacking).1, (stackAncestor_ancestors stacking).2 unparked⟩
  refine ⟨⟨?_, ?_, ?_⟩, ⟨?_, ⟨0, ?_⟩, suspendedAs.descriptors, rfl, ?_, shape.1.trans older.1⟩⟩
  · exact shape.2.1.symm ▸ older.2.waits
  · exact shape.2.1.symm ▸ older.2.background
  · exact shape.2.2.symm ▸ older.2.interactiveChild
  · rw [becomeChild, parent]
  · rw [becomeChild, parent]
    simp only [UInt64.or_zero]
    exact suspendedAs.savedAs.same
  · rw [becomeChild, parent]

theorem Dispatched.brackets (dispatched : Dispatched machine kernel outcome)
    (stays : outcome.switch ≠ .parksBackground ∧ outcome.switch ≠ .parksInteractive) :
    Unparked outcome.kernel.suspended ∧
      Bracketed outcome.kernel (track opened kernel outcome.switch) := by
  cases dispatched with
  | stays quiet => exact (quiet.brackets unparked).imp_right fun next => next bracketed
  | waited other waited =>
    cases waited with
    | stays quiet => exact (quiet.brackets unparked).imp_right fun next => next bracketed
    | waits attempts => exact (attempts.quiets.brackets unparked).imp_right fun next => next bracketed
    | parksBackground attempts parks => exact absurd rfl stays.1
    | parksInteractive attempts parks => exact absurd rfl stays.2
    | resumesBackground attempts resumes =>
      have between := (attempts.quiets.brackets unparked).1
      cases resumes with
      | resumes ready resumes => exact absurd ready (by simp [between.not_ready])
    | resumesInteractive attempts resumes =>
      have between := (attempts.quiets.brackets unparked).1
      cases resumes with
      | resumes ready resumes => exact absurd ready (by simp [between.cannot_resume])
  | clones number clones =>
    cases clones with
    | fails value => exact ⟨unparked, bracketed⟩
    | refusedNested stacking =>
      exact ⟨⟨fun _ => rfl, SnapshotAllocation.not_valid_invalid, unparked.interactiveChild⟩,
        bracketed.of_same rfl rfl rfl rfl⟩
    | refused before idle regular =>
      obtain ⟨rfl, nested⟩ := bracketed.of_inactive before
      have same : ∀ parent, { kernel.suspended with
          parent, parentDescriptors := .closed }.reinstateAncestor kernel.context =
          { kernel.suspended with parent, parentDescriptors := .closed } :=
        fun _ => if_pos nested
      simp only [fails, same]
      exact ⟨{ unparked with }, idle, nested⟩
    | forks accepts room suspends =>
      obtain ⟨unparked, recorded⟩ := forks_brackets sound unparked bracketed accepts room suspends
      exact ⟨unparked, recorded, bracketed⟩
  | executes admissible admissible' executes =>
    cases executes <;>
      exact ⟨unparked, bracketed.of_same rfl rfl rfl rfl⟩
  | reaps outside =>
    exact ⟨{ unparked with }, bracketed.congr rfl ⟨0, by rw [UInt64.or_zero]; rfl⟩ rfl rfl rfl rfl⟩
  | regroups =>
    exact ⟨{ unparked with }, bracketed.congr rfl ⟨0, by rw [UInt64.or_zero]⟩ rfl rfl rfl rfl⟩
  | ends active loaded freed =>
    refine ⟨ends_unparked unparked, ?_⟩
    cases opened with
    | nil =>
      rw [bracketed.1] at active
      cases active
    | cons origin opened =>
      exact (ends_restored bracketed.1 bracketed.2 sound.stocked.orderly.parent).bracketed
        bracketed.2
  | startsStress executes =>
    cases executes
    exact ⟨unparked, bracketed.of_same rfl rfl rfl rfl⟩

theorem Stepped.brackets (stepped : Stepped machine kernel event (switch, kernel'))
    (stays : switch ≠ .parksBackground ∧ switch ≠ .parksInteractive) :
    Unparked kernel'.suspended ∧ Bracketed kernel' (track opened kernel switch) := by
  cases stepped with
  | quiet quiets same => exact (quiets.brackets unparked).imp_right fun next => next bracketed
  | trap dispatched =>
    obtain ⟨unparked, bracketed⟩ := dispatched.brackets sound unparked bracketed stays
    split
    · exact ⟨unparked, bracketed⟩
    · exact ⟨unparked, bracketed.of_same rfl rfl rfl rfl⟩

end

/-! ## Runs -/

/-- Runs in which nobody parks, with the calls of `clone` that are open. -/
inductive NestedRun (machine : Machine) : Kernel → List Kernel → Prop where
  | start {kernel : Kernel} (started : Started machine kernel) : NestedRun machine kernel []
  | step {kernel kernel' : Kernel} {opened : List Kernel} {event : Event} {switch : Switch}
      (run : NestedRun machine kernel opened)
      (done : kernel.step machine event = .ok (switch, kernel'))
      (stays : switch ≠ .parksBackground ∧ switch ≠ .parksInteractive) :
      NestedRun machine kernel' (track opened kernel switch)

theorem Unparked.not_parked (unparked : Unparked kernel.suspended) :
    ¬ kernel.suspended.background.Parked := fun parked => unparked.background parked.2.2

/-- The suspended parents are the forks that are still open. -/
theorem NestedRun.invariant (run : NestedRun machine kernel opened) :
    Sound machine kernel 0 ∧ Unparked kernel.suspended ∧ Bracketed kernel opened := by
  induction run with
  | start started =>
    refine ⟨started.sound, ?_⟩
    rw [Bracketed, started.suspended]
    exact ⟨⟨fun _ => rfl, SnapshotAllocation.not_valid_invalid, rfl⟩, rfl, rfl⟩
  | step run done stays ih =>
    obtain ⟨sound, unparked, bracketed⟩ := ih
    have stepped := step_spec sound.healthy done
    obtain ⟨lost, -, sounder, danger⟩ := stepped.effect sound
    have nobody : lost = 0 := not_not.mp fun nonzero => unparked.not_parked (danger nonzero)
    rw [nobody, ranges_zero, Multiset.add_zero] at sounder
    exact ⟨sounder, stepped.brackets sound unparked bracketed stays⟩

theorem NestedRun.course (run : NestedRun machine kernel opened)
    (went : kernel.course machine events = .ok (switches, kernel'))
    (stays : ∀ switch ∈ switches, switch ≠ .parksBackground ∧ switch ≠ .parksInteractive) :
    ∃ opened, NestedRun machine kernel' opened := by
  induction events generalizing kernel opened switches with
  | nil =>
    cases went
    exact ⟨opened, run⟩
  | cons event events ih =>
    obtain ⟨switch, between, rest, stepped, goes, rfl⟩ := course_cons.mp went
    exact ih (run.step stepped (stays _ (List.mem_cons_self ..))) goes
      fun switch mem => stays switch (List.mem_cons_of_mem _ mem)

theorem Restored.finish (restored : Restored origin kernel.context.pid kernel')
    (replaced : kernel'.imageReplaced = true) :
    Restored origin kernel.context.pid (kernel'.finish (UInt32.ofNat kernel.context.pid)) := by
  obtain ⟨added, context⟩ := restored.context
  refine { restored with context := ⟨added, ?_⟩ }
  rw [Kernel.finish, if_pos replaced, context]
  simp [TrapFrame.setResult, TrapFrame.advance]

/-- When a child exits, its parent goes on as it was at the fork.  Only a program image that has to
be loaded again can be in the way. -/
theorem exit_restores_parent {moment : Moment} (run : NestedRun machine kernel (origin :: opened))
    (called : SystemCall.ofNumber kernel.context.frame.number = .exit) :
    kernel.context.pid = origin.nextPid ∧
      ((kernel.context.image ≠ origin.context.image →
          ∃ memory, restoreExecutableImage machine kernel.files origin.context.executablePath
            kernel.leaving.memory = (true, memory)) →
        ∃ kernel', kernel.step machine (.call moment) = .ok (.ends, kernel')) ∧
      ∀ switch kernel', kernel.step machine (.call moment) = .ok (switch, kernel') →
        switch = .ends ∧ Restored origin kernel.context.pid kernel' := by
  obtain ⟨sound, -, recorded, bracketed⟩ := run.invariant
  have regular := sound.stocked.orderly.parent
  obtain ⟨added, context⟩ := recorded.context
  refine ⟨recorded.pid, fun loads => ?_, fun switch kernel' done => ?_⟩
  · obtain ⟨arena, released⟩ := sound.exists_release recorded.active
    obtain ⟨memory, loaded⟩ : ∃ memory, kernel.leaving.reloadIfReplaced machine
        kernel.suspended.parent.toSavedContext = .ok memory := by
      simp only [reloadIfReplaced_eq_ok]
      rw [context]
      have image : kernel.leaving.context.image = kernel.context.image := by rw [leaving_eq]
      have files : kernel.leaving.files = kernel.files := by rw [leaving_eq]
      rw [image, files]
      by_cases same : kernel.context.image = origin.context.image
      · exact ⟨_, .inr ⟨same, rfl⟩⟩
      · obtain ⟨memory, loaded⟩ := loads same
        exact ⟨memory, .inl ⟨same, loaded⟩⟩
    exact ⟨_, (step_exit called regular recorded.active).mpr
      ⟨memory, arena, loaded, released, rfl, rfl⟩⟩
  obtain ⟨memory, arena, -, -, rfl, rfl⟩ := (step_exit called regular recorded.active).mp done
  refine ⟨rfl, ?_⟩
  rw [recorded.childPid]
  refine (ends_restored recorded bracketed regular).finish ?_
  rw [reinstated, adoptParent_eq]

/-- A process that makes a child, which makes a child, which exits. -/
theorem exit_restores_parent_nested :
    ∃ kernel origin opened kernel', NestedRun {} kernel (origin :: opened) ∧
      kernel.context.pid = 3 ∧ kernel.step {} (.call {}) = .ok (.ends, kernel') ∧
      origin.nextPid = 3 ∧ Restored origin 3 kernel' := by
  have seen : ((boot {}).course {} [.prepare 220 [17], .call {}, .prepare 220 [17], .call {},
      .prepare 93 [5]]).map (fun went => (went.1, went.2.context.pid, went.2.context.image,
        went.2.suspended.parent.image, went.2.suspended.parent.active,
        SystemCall.ofNumber went.2.context.frame.number)) =
      .ok ([.stays, .forks, .stays, .forks, .stays], 3, .busybox, .busybox, true, .exit) := by
    decide +kernel
  obtain ⟨⟨switches, kernel⟩, went, view⟩ := Halting.exists_of_map seen
  simp only [Prod.mk.injEq] at view
  obtain ⟨rfl, pid, image, parentImage, active, called⟩ := view
  obtain ⟨opened, run⟩ := (NestedRun.start (started_boot {})).course went (by decide)
  obtain ⟨-, -, bracketed⟩ := run.invariant
  cases opened with
  | nil =>
    rw [bracketed.1] at active
    cases active
  | cons origin opened =>
    obtain ⟨added, context⟩ := bracketed.1.context
    rw [context] at parentImage
    obtain ⟨childPid, resumes, restores⟩ := exit_restores_parent run called
    obtain ⟨kernel', done⟩ := resumes fun other => absurd (image.trans parentImage.symm) other
    have restored := (restores _ _ done).2
    rw [pid] at childPid restored
    exact ⟨kernel, origin, opened, kernel', run, pid, done, childPid.symm, restored⟩

end Kernel
end Mikos.Process
