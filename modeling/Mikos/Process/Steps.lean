import Mikos.Process.Turns

/-!
# What every step does to the processes

Each step exchanges at most one suspended process for the running one.  The invariant of the
records therefore holds in every kernel that a run reaches.
-/

namespace Mikos.Process
open Library Network List Suspended
namespace Kernel

/-- What attempts keep of the running process and of its parent. -/
structure Still (kernel kernel' : Kernel) : Prop where
  context : kernel'.context = kernel.context
  descriptors : kernel'.descriptors = kernel.descriptors
  memory : kernel'.memory = kernel.memory
  files : kernel'.files = kernel.files
  parent : kernel.suspended.parent.active = true →
    kernel'.suspended.parent = kernel.suspended.parent ∧
    kernel'.suspended.parentDescriptors = kernel.suspended.parentDescriptors ∧
    kernel'.suspended.interactiveParent = kernel.suspended.interactiveParent

/-- What a step does to the processes. -/
inductive Effect (machine : Machine) (kernel : Kernel) (leaked : Multiset SnapshotAllocation) :
    Switch → Kernel → Multiset Holding → Prop where
  | keeps (label : switch = .stays ∨ switch = .waits ∨ switch = .startsStress)
      (exchanged : Exchanged machine kernel kernel' leaked 0 0 lost) :
      Effect machine kernel leaked switch kernel' lost
  | forks (forked : Forked machine kernel kernel' leaked record) :
      Effect machine kernel leaked .forks kernel' 0
  | ends
      (exchanged : Exchanged machine kernel kernel' leaked 0 {kernel.suspended.parentHolding} lost)
      (aside : kernel'.suspended.interactiveParent = kernel.suspended.interactiveParent) :
      Effect machine kernel leaked .ends kernel' lost
  | parks {record : SavedContext} (label : switch = .parksBackground ∨ switch = .parksInteractive)
      (exchanged : Exchanged machine kernel kernel' leaked {(record.quiet, kernel.descriptors)}
        {holding} lost)
      (successor : Successor kernel kernel' holding) :
      Effect machine kernel leaked switch kernel' lost
  | resumes {record : SavedContext}
      (label : switch = .resumesBackground ∨ switch = .resumesInteractive)
      (exchanged : Exchanged machine kernel kernel' leaked {(record.quiet, kernel.descriptors)}
        {holding} lost) :
      Effect machine kernel leaked switch kernel' lost

variable {machine : Machine} {kernel kernel' : Kernel} {outcome : Outcome}

section Steps
variable {leaked : Multiset SnapshotAllocation}

theorem Attempt.still (attempt : Attempt machine kernel kernel') : Still kernel kernel' := by
  cases attempt with
  | channels => exact ⟨rfl, rfl, rfl, rfl, fun _ => ⟨rfl, rfl, rfl⟩⟩
  | parksBackground refused
  | parksInteractive refused =>
    cases refused <;> exact ⟨rfl, rfl, rfl, rfl, fun _ => ⟨rfl, rfl, rfl⟩⟩
  | resumesBackground refused
  | resumesInteractive refused =>
    cases refused with
    | stays => exact ⟨rfl, rfl, rfl, rfl, fun _ => ⟨rfl, rfl, rfl⟩⟩
    | refused ready idle refuses =>
      obtain ⟨-, -⟩ := refuses
      exact ⟨rfl, rfl, rfl, rfl, fun active => absurd active (by simp [idle])⟩

theorem Attempts.still (attempts : Attempts machine kernel kernel') : Still kernel kernel' := by
  induction attempts with
  | refl => exact ⟨rfl, rfl, rfl, rfl, fun _ => ⟨rfl, rfl, rfl⟩⟩
  | tail _ attempt ih =>
    have next := attempt.still
    refine ⟨next.context.trans ih.context, next.descriptors.trans ih.descriptors,
      next.memory.trans ih.memory, next.files.trans ih.files, fun active => ?_⟩
    obtain ⟨parent, table, aside⟩ := ih.parent active
    obtain ⟨parent', table', aside'⟩ := next.parent (by rw [parent]; exact active)
    exact ⟨parent'.trans parent, table'.trans table, aside'.trans aside⟩

theorem Exchanged.after {entering left lost lost' : Multiset Holding}
    (settled : Settled kernel between lost) (still : Still kernel between)
    (exchanged : Exchanged machine between kernel' (ranges lost + leaked) entering left lost') :
    Exchanged machine kernel kernel' leaked entering left (lost' + lost) where
  danger nonzero := by
    by_cases none : lost' = 0
    · rw [none, Multiset.zero_add] at nonzero
      exact settled.lost nonzero
    · exact settled.parked (exchanged.danger none)
  stocked := by
    rw [ranges_add, add_assoc]
    exact exchanged.stocked
  bounded := exchanged.bounded
  left holding mem := (exchanged.left holding mem).earlier (by rw [still.context]) still.files
    fun {_} stored => by rwa [still.memory]
  memory := by
    rw [← still.files, ← still.memory]
    exact exchanged.memory
  stored := by
    rw [← still.files, ← still.memory]
    exact exchanged.stored
  apart := by
    rw [← settled.occupied, ranges_add, add_assoc]
    exact exchanged.apart

theorem Successor.after (active : kernel.suspended.parent.active = true)
    (still : Still kernel between) (successor : Successor between kernel' holding) :
    Successor kernel kernel' holding := by
  obtain ⟨parent, table, aside⟩ := still.parent active
  cases successor with
  | parent same =>
    have holding : between.suspended.parentHolding = kernel.suspended.parentHolding := by
      rw [parentHolding, parent, table]
      rfl
    rw [holding]
    exact .parent (same.trans aside)
  | relay before moved => exact .relay (by rw [relayed, ← aside]; exact before) (moved.trans parent)

theorem Exchanged.finish {entering left lost : Multiset Holding}
    (exchanged : Exchanged machine kernel kernel' leaked entering left lost) (result : UInt32) :
    Exchanged machine kernel (kernel'.finish result) leaked entering left lost :=
  { exchanged with bounded := { exchanged.bounded with } }

theorem Forked.finish (forked : Forked machine kernel kernel' leaked record) (result : UInt32) :
    Forked machine kernel (kernel'.finish result) leaked record := by
  refine { forked with exchanged := forked.exchanged.finish result, context := ?_ }
  rw [Kernel.finish, forked.context]

/-- The suspended processes and the state of the running one keep their invariants. -/
structure Sound (machine : Machine) (kernel : Kernel) (leaked : Multiset SnapshotAllocation) :
    Prop where
  stocked : Stocked machine kernel.suspended kernel.arena leaked
  bounded : Bounded kernel.context
  replaced : kernel.imageReplaced = false

section
variable (sound : Sound machine kernel leaked)
include sound

theorem Sound.healthy : kernel.Healthy := by
  obtain ⟨blocks, represents, -⟩ := sound.stocked.owned
  exact ⟨⟨blocks, represents⟩, sound.stocked.orderly⟩

theorem Attempts.quietly (attempts : Attempts machine kernel kernel') :
    ∃ lost, Settled kernel kernel' lost ∧ Still kernel kernel' ∧
      Stocked machine kernel'.suspended kernel'.arena (ranges lost + leaked) ∧
      Bounded kernel'.context := by
  obtain ⟨lost, settled⟩ := attempts.quiets.settled sound.stocked.orderly
  have exchanged := settled.exchanged sound.stocked sound.bounded
  exact ⟨lost, settled, attempts.still, exchanged.stocked, exchanged.bounded⟩

theorem Quiets.effect (label : switch = .stays ∨ switch = .waits ∨ switch = .startsStress)
    (quiets : Quiets machine kernel kernel') :
    ∃ lost, Effect machine kernel leaked switch kernel' lost := by
  obtain ⟨lost, settled⟩ := quiets.settled sound.stocked.orderly
  exact ⟨lost, .keeps label (settled.exchanged sound.stocked sound.bounded)⟩

theorem Waited.effect (waited : Waited machine kernel outcome) :
    ∃ lost, Effect machine kernel leaked outcome.switch outcome.kernel lost := by
  cases waited with
  | stays quiet => exact quiet.effect sound (.inl rfl)
  | waits attempts => exact attempts.quiets.effect sound (.inr (.inl rfl))
  | parksBackground attempts parks =>
    obtain ⟨lost, settled, still, stocked, bounded⟩ := attempts.quietly sound
    have active : kernel.suspended.parent.active = true := by
      rw [← settled.active]
      cases parks
      assumption
    obtain ⟨record, holding, lost', exchanged, successor⟩ :=
      parksBackground_exchanged stocked bounded parks
    rw [still.descriptors] at exchanged
    exact ⟨_, .parks (.inl rfl) (exchanged.after settled still) (successor.after active still)⟩
  | parksInteractive attempts parks =>
    obtain ⟨lost, settled, still, stocked, bounded⟩ := attempts.quietly sound
    have active : kernel.suspended.parent.active = true := by
      rw [← settled.active]
      cases parks
      assumption
    obtain ⟨record, holding, exchanged, successor⟩ :=
      parksInteractive_exchanged stocked bounded parks
    rw [still.descriptors] at exchanged
    exact ⟨_, .parks (.inr rfl) (exchanged.after settled still) (successor.after active still)⟩
  | resumesBackground attempts resumes =>
    obtain ⟨lost, settled, still, stocked, bounded⟩ := attempts.quietly sound
    obtain ⟨record, exchanged⟩ := resumesBackground_exchanged stocked bounded resumes
    rw [still.descriptors] at exchanged
    exact ⟨_, .resumes (.inl rfl) (exchanged.after settled still)⟩
  | resumesInteractive attempts resumes =>
    obtain ⟨lost, settled, still, stocked, bounded⟩ := attempts.quietly sound
    obtain ⟨record, exchanged⟩ := resumesInteractive_exchanged stocked bounded resumes
    rw [still.descriptors] at exchanged
    exact ⟨_, .resumes (.inr rfl) (exchanged.after settled still)⟩

theorem Dispatched.effect (dispatched : Dispatched machine kernel outcome) :
    ∃ lost, Effect machine kernel leaked outcome.switch outcome.kernel lost := by
  have stocked := sound.stocked
  have bounded := sound.bounded
  cases dispatched with
  | stays quiet => exact quiet.effect sound (.inl rfl)
  | waited other waited => exact waited.effect sound
  | clones number clones =>
    cases clones with
    | fails value => exact Quiets.effect sound (.inl rfl) .refl
    | refusedNested stacking =>
      exact ⟨0, .keeps (.inl rfl) (clone_refusedNested_exchanged stocked bounded stacking)⟩
    | refused before idle regular =>
      exact ⟨_, .keeps (.inl rfl) (clone_refused_exchanged stocked bounded before idle regular)⟩
    | forks accepts room suspends =>
      obtain ⟨record, forked⟩ := forks_forked stocked bounded accepts room suspends
      exact ⟨0, .forks forked⟩
  | executes admissible admissible' executes =>
    refine ⟨0, .keeps (.inl rfl) (.of_same stocked ?_ ?_ (executes.bounded bounded)
      fun inside address outside => executes.outside inside admissible admissible' outside)⟩ <;>
    cases executes <;> rfl
  | reaps outside =>
    exact ⟨0, .keeps (.inl rfl) (.of_hints stocked rfl rfl rfl rfl rfl bounded outside)⟩
  | regroups =>
    exact ⟨0, .keeps (.inl rfl) (.of_hints stocked rfl rfl rfl rfl rfl bounded fun _ _ => rfl)⟩
  | ends active loaded freed =>
    obtain ⟨lost, exchanged⟩ := ends_exchanged stocked active loaded freed
    refine ⟨lost, .ends exchanged ?_⟩
    rw [reinstated, interactiveParent_reinstateAncestor, adoptParent_eq, leaving_eq]
  | startsStress executes =>
    refine ⟨0, .keeps (.inr (.inr rfl)) (.of_same stocked ?_ ?_ (executes.bounded bounded)
      fun inside address outside => executes.outside inside ⟨by decide, by decide⟩
        ⟨by decide, by decide⟩ outside)⟩ <;>
    cases executes <;> rfl

end

theorem Effect.finish (effect : Effect machine kernel leaked switch kernel' lost) (result : UInt32) :
    Effect machine kernel leaked switch (kernel'.finish result) lost := by
  cases effect with
  | keeps label exchanged => exact .keeps label (exchanged.finish result)
  | forks forked => exact .forks (forked.finish result)
  | ends exchanged aside => exact .ends (exchanged.finish result) aside
  | parks label exchanged successor =>
    refine .parks label (exchanged.finish result) ?_
    cases successor with
    | parent same => exact .parent same
    | relay before aside => exact .relay before aside
  | resumes label exchanged => exact .resumes label (exchanged.finish result)

theorem Effect.exchanged (effect : Effect machine kernel leaked switch kernel' lost) :
    ∃ entering left, Exchanged machine kernel kernel' leaked entering left lost := by
  cases effect with
  | keeps label exchanged
  | ends exchanged aside
  | parks label exchanged successor
  | resumes label exchanged => exact ⟨_, _, exchanged⟩
  | forks forked => exact ⟨_, _, forked.exchanged⟩

theorem Waited.replaced (orderly : kernel.suspended.Orderly)
    (waited : Waited machine kernel outcome) (waits : outcome.switch = .waits) :
    outcome.kernel.imageReplaced = kernel.imageReplaced := by
  cases waited with
  | waits attempts =>
    obtain ⟨lost, settled⟩ := attempts.quiets.settled orderly
    exact settled.replaced
  | _ => cases waits

theorem Dispatched.replaced (orderly : kernel.suspended.Orderly)
    (dispatched : Dispatched machine kernel outcome) (waits : outcome.switch = .waits) :
    outcome.kernel.imageReplaced = kernel.imageReplaced := by
  cases dispatched with
  | waited other waited => exact waited.replaced orderly waits
  | clones number clones => cases clones <;> cases waits
  | _ => cases waits

/-- What every step does to the processes; all states keep the invariants. -/
theorem Stepped.effect (sound : Sound machine kernel leaked)
    (stepped : Stepped machine kernel event (switch, kernel')) :
    ∃ lost, Effect machine kernel leaked switch kernel' lost ∧
      Sound machine kernel' (ranges lost + leaked) ∧
      (lost ≠ 0 → kernel.suspended.background.Parked) := by
  suffices ∃ lost, Effect machine kernel leaked switch kernel' lost ∧
      kernel'.imageReplaced = false by
    obtain ⟨lost, effect, replaced⟩ := this
    obtain ⟨entering, left, exchanged⟩ := effect.exchanged
    exact ⟨lost, effect, ⟨exchanged.stocked, exchanged.bounded, replaced⟩, exchanged.danger⟩
  cases stepped with
  | quiet quiets same =>
    obtain ⟨lost, effect⟩ := quiets.effect sound (.inl rfl)
    exact ⟨lost, effect, same.trans sound.replaced⟩
  | @trap outcome moment dispatched =>
    obtain ⟨lost, effect⟩ := dispatched.effect sound
    split
    next waits =>
      refine ⟨lost, effect, ?_⟩
      rw [dispatched.replaced sound.stocked.orderly waits]
      exact sound.replaced
    next other => exact ⟨lost, effect.finish _, rfl⟩

/-- The snapshot of the parent can be given back: the records are fewer than the free blocks the
arena has room for. -/
theorem Sound.exists_release (sound : Sound machine kernel 0)
    (active : kernel.suspended.parent.active = true) :
    ∃ arena, releaseSnapshot kernel.arena kernel.suspended.parent.snapshot = .ok arena := by
  have owned := sound.stocked.owned
  rw [occupied_of_active sound.stocked.orderly.parent active, Multiset.add_zero,
    ranges_add, ranges_singleton, Multiset.singleton_add] at owned
  refine owned.exists_release ?_
  rw [ranges, Multiset.card_map]
  exact lt_of_le_of_lt (card_others_le sound.stocked.orderly) (by decide)

theorem Started.occupied (started : Started machine kernel) : kernel.suspended.occupied = 0 := by
  have nothing := SnapshotAllocation.not_valid_invalid
  rw [started.suspended, Suspended.occupied, Suspended.parked,
    if_neg (fun parked => nothing parked.2.2)]
  simp [held, nothing, stacked]

theorem Started.sound (started : Started machine kernel) : Sound machine kernel 0 := by
  refine ⟨⟨?_, ?_, ?_⟩, ?_, started.replaced⟩
  · rw [started.suspended]
    exact ⟨SuspendedParent.regular_default, SuspendedParent.regular_default, by simp, by decide,
      Nat.zero_le _, fun used => (Bool.false_ne_true used).elim⟩
  · rw [started.occupied, started.arena]
    exact .initial machine
  · rw [started.occupied]
    simp
  · exact ⟨started.mutableBegin, started.brk, started.mmap.1, started.mmap.2⟩

/-- The kernels that runs from one process reach. -/
inductive Reachable (machine : Machine) : Kernel → Prop where
  | start {kernel : Kernel} (started : Started machine kernel) : Reachable machine kernel
  | step {kernel kernel' : Kernel} {event : Event} {switch : Switch}
      (reached : Reachable machine kernel)
      (done : kernel.step machine event = .ok (switch, kernel')) : Reachable machine kernel'

/-- The invariants hold in every kernel that runs reach. -/
theorem Reachable.sound (reached : Reachable machine kernel) :
    ∃ leaked, Sound machine kernel leaked := by
  induction reached with
  | start started => exact ⟨0, started.sound⟩
  | step _ done ih =>
    obtain ⟨leaked, sound⟩ := ih
    obtain ⟨lost, -, sounder, -⟩ := (step_spec sound.healthy done).effect sound
    exact ⟨_, sounder⟩

end Steps
end Kernel
end Mikos.Process
