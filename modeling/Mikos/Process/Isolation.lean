import Mikos.Process.Refusals

/-!
# The memory of a parent while its child runs

A child runs in the memory of its parent, whose bytes are in a snapshot meanwhile.  The
snapshot covers the data, the mappings and the stack from the stack pointer of the *child* on.
With a stack of its own, a child finds part of its parent's stack uncovered.
-/

namespace Mikos.Process
open Library Network Suspended
namespace Kernel
variable {machine : Machine} {kernel kernel' forked child after : Kernel} {outcome : Outcome}
  {switch : Switch}

/-! ## The record of the parent -/

/-- The parent's record holds the same process. -/
structure KeepsParent (kernel kernel' : Kernel) : Prop where
  active : kernel'.suspended.parent.active = true
  holding : kernel'.suspended.parentHolding = kernel.suspended.parentHolding

theorem KeepsParent.of_same (active : kernel.suspended.parent.active = true)
    (parent : kernel'.suspended.parent = kernel.suspended.parent)
    (table : kernel'.suspended.parentDescriptors = kernel.suspended.parentDescriptors) :
    KeepsParent kernel kernel' := by
  refine ⟨by rw [parent, active], ?_⟩
  rw [parentHolding, parent, table]
  rfl

theorem KeepsParent.trans (first : KeepsParent kernel between)
    (second : KeepsParent between kernel') : KeepsParent kernel kernel' :=
  ⟨second.active, second.holding.trans first.holding⟩

section
variable (active : kernel.suspended.parent.active = true)
include active

theorem Quiet.keepsParent (quiet : Quiet machine kernel kernel') : KeepsParent kernel kernel' := by
  cases quiet with
  | attempt attempt =>
    obtain ⟨parent, table, -⟩ := attempt.still.parent active
    exact .of_same active parent table
  | runs move => exact .of_same active rfl rfl
  | @signalsParent signal =>
    have quiet := quiet_queue kernel.suspended.parent.toSavedContext signal
    exact ⟨active, congrArg (·, kernel.suspended.parentDescriptors) quiet⟩

theorem Quiets.keepsParent (quiets : Quiets machine kernel kernel') :
    KeepsParent kernel kernel' := by
  induction quiets with
  | refl => exact .of_same active rfl rfl
  | tail _ quiet ih => exact ih.trans (quiet.keepsParent ih.active)

theorem Dispatched.keepsParent (dispatched : Dispatched machine kernel outcome)
    (stays : outcome.switch = .stays ∨ outcome.switch = .waits) :
    KeepsParent kernel outcome.kernel := by
  cases dispatched with
  | stays quiet => exact quiet.keepsParent active
  | waited other waited =>
    cases waited with
    | stays quiet => exact quiet.keepsParent active
    | waits attempts => exact attempts.quiets.keepsParent active
    | _ => simp [switched] at stays
  | clones number clones =>
    cases clones with
    | fails value
    | refusedNested stacking => exact .of_same active rfl rfl
    | refused before idle regular => exact absurd active (by simp [before])
    | forks accepts room suspends => simp at stays
  | executes admissible admissible' executes =>
    cases executes <;> exact .of_same active rfl rfl
  | reaps outside
  | regroups => exact ⟨active, rfl⟩
  | ends active loaded freed => simp at stays
  | startsStress executes => simp at stays

theorem Stepped.keepsParent (stepped : Stepped machine kernel event (switch, kernel'))
    (stays : switch = .stays ∨ switch = .waits) : KeepsParent kernel kernel' := by
  cases stepped with
  | quiet quiets same => exact quiets.keepsParent active
  | trap dispatched =>
    have keeps := dispatched.keepsParent active stays
    split
    · exact keeps
    · exact ⟨keeps.active, keeps.holding⟩

end

/-! ## Runs of a child -/

/-- A child runs, with any files that are loaded into user memory only, and neither exits nor
parks. -/
inductive ChildRun (machine : Machine) (forked : Kernel) : Kernel → Prop where
  | start : ChildRun machine forked forked
  | step {child child' : Kernel} {event : Event} {switch : Switch}
      (run : ChildRun machine forked child) (inside : LoadsInside machine child.files)
      (done : child.step machine event = .ok (switch, child'))
      (stays : switch = .stays ∨ switch = .waits) : ChildRun machine forked child'

/-- The bytes of a process are in its snapshot while its child runs. -/
structure Guarded (machine : Machine) (parent : Holding) (before : Bytes) (child : Kernel) :
    Prop where
  sound : ∃ leaked, Sound machine child leaked
  active : child.suspended.parent.active = true
  holding : child.suspended.parentHolding = parent
  stored : Stored parent.1 child.memory before

theorem Guarded.step {holding : Holding} {before : Bytes} {event : Event}
    (guarded : Guarded machine holding before child) (inside : LoadsInside machine child.files)
    (done : child.step machine event = .ok (switch, after))
    (stays : switch = .stays ∨ switch = .waits) : Guarded machine holding before after := by
  obtain ⟨⟨leaked, sound⟩, active, same, stored⟩ := guarded
  have stepped := step_spec sound.healthy done
  have keeps := stepped.keepsParent active stays
  obtain ⟨lost, effect, sounder, -⟩ := stepped.effect sound
  obtain ⟨entering, left, exchanged⟩ := effect.exchanged
  have mem : holding ∈ child.suspended.occupied :=
    same ▸ mem_parentHolding sound.stocked.orderly.parent active
  exact ⟨⟨_, sounder⟩, keeps.active, keeps.holding.trans same,
    exchanged.kept sound.stocked inside mem stored⟩

theorem ChildRun.guarded (run : ChildRun machine forked child)
    (guarded : Guarded machine holding before forked) : Guarded machine holding before child := by
  induction run with
  | start => exact guarded
  | step _ inside done stays ih => exact ih.step inside done stays

/-- The bytes of the parent after its child exited or parked: they are in memory, or in the
snapshot of the parent that was set aside. -/
def parentBytes (child after : Kernel) : Bytes :=
  if child.suspended.relayed = false ∧ after.suspended.relayed = true then
    after.suspended.interactiveParent.toSavedContext.restoreMemory after.memory
  else after.memory

theorem Guarded.parentBytes {holding : Holding} (guarded : Guarded machine holding before child)
    (inside : LoadsInside machine child.files)
    (done : child.step machine event = .ok (switch, after))
    (gone : switch = .ends ∨ switch = .parksBackground ∨ switch = .parksInteractive)
    (covered : holding.1.Covers address) : parentBytes child after address = before address := by
  obtain ⟨⟨leaked, sound⟩, active, rfl, stored⟩ := guarded
  obtain ⟨lost, effect, -⟩ := (step_spec sound.healthy done).effect sound
  have mem := mem_parentHolding sound.stocked.orderly.parent active
  have placed := sound.stocked.placed _ mem
  have below := (sound.stocked.below mem).2
  -- the parent itself goes on, and no other parent is set aside
  have comesBack : Returned machine child after child.suspended.parentHolding →
      after.suspended.relayed = child.suspended.relayed →
      child.parentBytes after address = before address := by
    intro returned same
    rw [Kernel.parentBytes, if_neg (by rw [same]; simp)]
    exact returned.bytes placed below inside stored covered
  cases effect with
  | keeps label exchanged => rcases label with rfl | rfl | rfl <;> simp at gone
  | forks forked => simp at gone
  | ends exchanged aside =>
    refine comesBack (exchanged.left _ (Multiset.mem_singleton_self _)) ?_
    rw [relayed, aside]
    rfl
  | parks label exchanged successor =>
    cases successor with
    | parent same =>
      refine comesBack (exchanged.left _ (Multiset.mem_singleton_self _)) ?_
      rw [relayed, same]
      rfl
    | relay before aside =>
      have relayed : after.suspended.relayed = true := by
        rw [relayed, aside]
        exact active
      rw [Kernel.parentBytes, if_pos ⟨before, relayed⟩, aside]
      have kept := exchanged.kept sound.stocked inside mem stored
      have put := placed.restoreMemory_stored below kept address
      rw [if_pos covered] at put
      exact put
  | resumes label exchanged => rcases label with rfl | rfl <;> simp at gone

/-! ## The bytes of a parent -/

/-- The user memory that a process has: its data, its mappings, and its stack. -/
def Own (context : Context) (address : Nat) : Prop :=
  UserAddress address ∧
    ((context.mutableBegin ≤ address ∧ address < context.brk) ∨
      (context.mmapBegin ≤ address ∧ address < context.mmapCursor) ∨
      (context.frame.stack ≤ address ∧ address < userStackTop))
deriving Decidable

/-- What lies between the stack pointer of a process that calls `clone` and the stack of its
child is data or mapped. -/
def StackCovered (context : Context) : Prop :=
  ∀ address, UserAddress address → context.frame.stack ≤ address → address < userStackTop →
    address < alignDown (cloneStack context.frame (context.frame.argument 1)) 16 →
    (context.mutableBegin ≤ address ∧ address < context.brk) ∨
      (context.mmapBegin ≤ address ∧ address < context.mmapCursor)

/-- Whatever a child does, the bytes of its parent are the same when it has exited or parked. -/
def Isolated (machine : Machine) (kernel forked : Kernel) : Prop :=
  ∀ {child after event switch}, ChildRun machine forked child → LoadsInside machine child.files →
    child.step machine event = .ok (switch, after) →
    switch = .ends ∨ switch = .parksBackground ∨ switch = .parksInteractive →
    ∀ address, Own kernel.context address → parentBytes child after address = kernel.memory address

/-- The record of a process covers what it has, if its stack is covered. -/
theorem Forked.covers (made : Forked machine kernel forked leaked record)
    (covered : StackCovered kernel.context) (own : Own kernel.context address) :
    record.Covers address := by
  have stack := made.stack
  have same := made.same
  rw [made.placed.covers_iff, stack, same]
  obtain ⟨user, data | mapped | stacked⟩ := own
  · exact .inl data
  · exact .inr (.inl mapped)
  by_cases low : address < alignDown
    (cloneStack kernel.context.frame (kernel.context.frame.argument 1)) 16
  · rcases covered address user stacked.1 stacked.2 low with data | mapped
    · exact .inl data
    · exact .inr (.inl mapped)
  · exact .inr (.inr ⟨not_lt.mp low, stacked.2⟩)

theorem Forked.isolated (made : Forked machine kernel forked leaked record)
    (sounder : Sound machine forked leaked) (inside : LoadsInside machine kernel.files)
    (covered : StackCovered kernel.context) : Isolated machine kernel forked := by
  intro child after event switch run files done gone address own
  have stored := made.exchanged.stored inside _ (Multiset.mem_singleton_self _)
  have guarded : Guarded machine (record.quiet, kernel.descriptors) kernel.memory forked :=
    ⟨⟨leaked, sounder⟩, made.active, by rw [parentHolding, made.parent, made.table], stored⟩
  exact (run.guarded guarded).parentBytes files done gone (made.covers covered own)

/-! ### Bytes that no snapshot covers -/

/-- The bytes of a child that exits stay where no snapshot covers them. -/
theorem exit_uncovered {arena : SnapshotArena}
    (called : SystemCall.ofNumber child.context.frame.number = .exit)
    (regular : child.suspended.parent.Regular) (active : child.suspended.parent.active = true)
    (image : child.context.image = child.suspended.parent.image)
    (freed : releaseSnapshot child.arena child.suspended.parent.snapshot = .ok arena)
    (forgotten : child.context.childTidAddress = 0) :
    ∃ after, child.step machine (.call {}) = .ok (.ends, after) ∧
      ∀ address, ¬ child.suspended.parent.toSavedContext.Covers address →
        parentBytes child after address = child.memory address := by
  have loaded : child.leaving.reloadIfReplaced machine child.suspended.parent.toSavedContext =
      .ok child.leaving.memory := by
    rw [reloadIfReplaced, if_neg]
    rw [leaving_eq]
    exact not_not.mpr image
  have parent : child.leaving.suspended.parent = child.suspended.parent := by rw [leaving_eq]
  have same : child.leaving.memory = child.memory := by
    rw [leaving_eq]
    exact if_neg fun given => given.1 forgotten
  refine ⟨_, (step_exit called regular active).mpr ⟨_, _, loaded, freed, rfl, rfl⟩, ?_⟩
  intro address uncovered
  rw [parentBytes, if_neg, finish, reinstated, adoptParent_eq]
  · dsimp only
    rw [parent, regular.saved, if_pos active, Placed.restoreMemory_outside uncovered, same]
  · rw [finish, reinstated, relayed, relayed,
      interactiveParent_reinstateAncestor, adoptParent_eq, leaving_eq]
    simp

/-- A child can withdraw the word that its exit would clear. -/
theorem ChildRun.forgets (inside : LoadsInside machine forked.files) :
    ∃ child, ChildRun machine forked child ∧ child.context.childTidAddress = 0 ∧
      child.context.image = forked.context.image ∧ child.suspended = forked.suspended ∧
      child.arena = forked.arena ∧ child.files = forked.files := by
  have ready := ChildRun.start.step inside
    (show forked.step machine (.prepare 96 [0]) = .ok (.stays, _) from rfl) (.inl rfl)
  exact ⟨_, ready.step inside (show Kernel.step machine _ (.call {}) = .ok (.stays, _) from rfl)
    (.inl rfl), rfl, rfl, rfl, rfl, rfl⟩

theorem Isolated.stackCovered {arena : SnapshotArena}
    (made : Forked machine kernel forked leaked record) (sounder : Sound machine forked leaked)
    (inside : LoadsInside machine kernel.files)
    (freed : releaseSnapshot forked.arena forked.suspended.parent.snapshot = .ok arena)
    (isolated : Isolated machine kernel forked) : StackCovered kernel.context := by
  intro address user low high below
  by_contra uncovered
  obtain ⟨child, run, forgotten, image, suspended, same, files⟩ :=
    ChildRun.forgets (made.files ▸ inside)
  have inside : LoadsInside machine child.files := by
    rw [files, made.files]
    exact inside
  -- the child stores another byte there and exits
  generalize stored : Function.update child.memory address (kernel.memory address + 1) = bytes
  obtain ⟨storing, stores⟩ : ∃ storing, child.step machine
      (.user (.calling 93 [0]) bytes 0 0 {}) = .ok (.stays, storing) := ⟨_, rfl⟩
  have run := run.step inside stores (.inl rfl)
  cases stores
  obtain ⟨after, done, kept⟩ := @exit_uncovered machine
    { child.store bytes with
      context :=
        { child.context with
          frame := .calling 93 [0]
          signals := { child.context.signals with pending := 0, blocked := 0 }
          signalFrame := {} } } arena
    (show SystemCall.ofNumber (TrapFrame.calling 93 [0]).number = .exit by decide)
    (show child.suspended.parent.Regular by rw [suspended]; exact sounder.stocked.orderly.parent)
    (show child.suspended.parent.active = true by rw [suspended]; exact made.active)
    (show child.context.image = child.suspended.parent.image by
      rw [image, suspended, made.parent, made.context, made.same])
    (show releaseSnapshot child.arena child.suspended.parent.snapshot = .ok arena by
      rw [same, suspended]; exact freed) forgotten
  have bytesSame := isolated run inside done (.inl rfl) address ⟨user, .inr (.inr ⟨low, high⟩)⟩
  have bare : ¬ child.suspended.parent.toSavedContext.Covers address := by
    rw [suspended, made.parent, made.placed.covers_iff, made.stack, made.same]
    rintro (data | mapped | stacked)
    · exact uncovered (.inl data)
    · exact uncovered (.inr mapped)
    · omega
  rw [kept address bare, store] at bytesSame
  simp [if_pos user, ← stored] at bytesSame

/-- A child leaves its parent's memory alone exactly if the saved stack covers what is in use. -/
theorem fork_isolates_memory {event : Event} (reached : Reachable machine kernel)
    (inside : LoadsInside machine kernel.files)
    (done : kernel.step machine event = .ok (.forks, forked)) :
    (StackCovered kernel.context → Isolated machine kernel forked) ∧
      ((∃ arena, releaseSnapshot forked.arena forked.suspended.parent.snapshot = .ok arena) →
        Isolated machine kernel forked → StackCovered kernel.context) := by
  obtain ⟨leaked, sound⟩ := reached.sound
  obtain ⟨lost, effect, sounder, -⟩ := (step_spec sound.healthy done).effect sound
  cases effect with
  | keeps label => simp at label
  | forks made =>
    rw [ranges_zero, Multiset.zero_add] at sounder
    exact ⟨made.isolated sounder inside, fun ⟨arena, released⟩ isolated =>
      isolated.stackCovered made sounder inside released⟩
  | parks label => simp at label
  | resumes label => simp at label

/-- A process whose child runs on its parent's stack. -/
theorem fork_isolates_memory_shared :
    ∃ kernel forked, Reachable {} kernel ∧ kernel.step {} (.call {}) = .ok (.forks, forked) ∧
      Isolated {} kernel forked := by
  have seen : ((boot {}).course {} [.prepare 220 [17], .call {}]).map Prod.fst =
      .ok [.stays, .forks] := by
    decide +kernel
  obtain ⟨⟨switches, forked⟩, went, rfl⟩ := Halting.exists_of_map seen
  obtain ⟨_, kernel, _, prepares, went, same⟩ := course_cons.mp went
  cases same
  obtain ⟨_, _, _, forks, went, same⟩ := course_cons.mp went
  cases same
  have reached := (Reachable.start (started_boot {})).step prepares
  have frame : kernel.context.frame = .calling 220 [17] := by cases prepares; rfl
  refine ⟨kernel, _, reached, forks,
    (fork_isolates_memory reached (loadsInside_of_plain _ _ (.inl rfl)) forks).1 ?_⟩
  intro address _ low _ below
  have stack : alignDown (cloneStack (.calling 220 [17])
      ((TrapFrame.calling 220 [17]).argument 1)) 16 = (TrapFrame.calling 220 [17]).stack := by
    decide +kernel
  rw [frame] at low below
  omega

/-- A process with its stack pointer at `0x81ffe000` gives its child a stack further up; the child
stores bytes everywhere and exits. -/
def borrowedStack : List Event :=
  [.prepare 220 [0x4111, 0x81ffef00], .call {}, .user (.calling 93 [0]) (fun _ => 1) 0 0 {},
    .call {}]

/-- The parent finds a byte of the child in its stack. -/
theorem fork_isolates_memory_borrowed :
    ∃ kernel forked child after, Reachable {} kernel ∧ LoadsInside {} kernel.files ∧
      kernel.step {} (.call {}) = .ok (.forks, forked) ∧ ChildRun {} forked child ∧
      child.step {} (.call {}) = .ok (.ends, after) ∧
      Own kernel.context 0x81ffe000 ∧
      parentBytes child after 0x81ffe000 ≠ kernel.memory 0x81ffe000 := by
  have seen : ((boot {}).course {} borrowedStack).map (fun went =>
      (went.1, went.2.memory 0x81ffe000, went.2.suspended.relayed)) =
      .ok ([.stays, .forks, .stays, .ends], 1, false) := by
    decide +kernel
  obtain ⟨⟨switches, after⟩, went, view⟩ := Halting.exists_of_map seen
  simp only [Prod.mk.injEq] at view
  obtain ⟨rfl, byte, relayed⟩ := view
  have plain := fun files => loadsInside_of_plain {} files (.inl rfl)
  obtain ⟨_, kernel, _, prepares, went, same⟩ := course_cons.mp went
  cases same
  obtain ⟨_, forked, _, forks, went, same⟩ := course_cons.mp went
  cases same
  obtain ⟨_, child, _, stores, went, same⟩ := course_cons.mp went
  cases same
  obtain ⟨_, last, _, ends, went, same⟩ := course_cons.mp went
  cases same
  cases went
  have reached := (Reachable.start (started_boot {})).step prepares
  refine ⟨kernel, forked, child, after, reached, plain _, forks,
    .step .start (plain _) stores (.inl rfl), ends, ?_, ?_⟩
  · cases prepares
    decide +kernel
  · cases prepares
    rw [parentBytes, if_neg (by simp [relayed]), byte]
    decide +kernel

/-- No step of any run changes the bytes that are kept of a suspended process. -/
theorem snapshots_kept (reached : Reachable machine kernel)
    (inside : LoadsInside machine kernel.files)
    (done : kernel.step machine event = .ok (switch, kernel')) :
    ∀ holding ∈ kernel.suspended.occupied, ∀ address, holding.1.snapshot.Contains address →
      kernel'.memory address = kernel.memory address := by
  intro holding mem address within
  obtain ⟨leaked, sound⟩ := reached.sound
  obtain ⟨lost, effect, -⟩ := (step_spec sound.healthy done).effect sound
  obtain ⟨entering, left, exchanged⟩ := effect.exchanged
  apply exchanged.memory inside address (sound.stocked.not_user mem within)
  intro new entered
  exact exchanged.apart _ (Stocked.mem_ranges mem leaked) new entered address within

/-- The child of a fork stores everywhere. -/
theorem snapshots_kept_forked : ∃ kernel : Kernel, kernel.suspended.parent.active ∧
    ∀ holding ∈ kernel.suspended.occupied, ∀ address, holding.1.snapshot.Contains address →
      (kernel.store fun _ => 1).memory address = kernel.memory address := by
  have seen : ((boot {}).course {} [.prepare 220 [17], .call {}]).map
      (·.2.suspended.parent.active) = .ok true := by
    decide +kernel
  obtain ⟨_, went, active⟩ := Halting.exists_of_map seen
  have kept := snapshots_kept ((Reachable.start (started_boot {})).course went)
    (loadsInside_of_plain _ _ (.inl rfl)) (show step _ _ (.user {} (fun _ => 1) 0 0 {}) = _ from rfl)
  exact ⟨_, active, kept⟩

end Kernel
end Mikos.Process
