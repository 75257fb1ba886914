import Mikos.Process.Pipes

/-!
# Pipes as streams

What was read from a pipe and what is still in its buffer are together what was written to
it.  Calls on one handle leave the other pipes alone, and a handle whose pipe is gone names no
pipe until the generations of its slot have gone round.
-/

namespace Mikos.Process
open Library Function ReferenceTable
namespace BufferedPipes
variable {tableCapacity bufferCapacity : Nat} [NeZero bufferCapacity]

/-! ## What a call does -/

/-- What a call does to the table, and what it answers. -/
inductive Effect (pipes : BufferedPipes tableCapacity bufferCapacity) :
    PipeCall → PipeAnswer → BufferedPipes tableCapacity bufferCapacity → Prop where
  | notCreated : Effect pipes .create (.created .noSpace {}) pipes
  | created (index : Fin tableCapacity) (vacant : (pipes index).used = false) :
      Effect pipes .create (.created .success (pipes.install index {} fun _ => 1).1)
        (pipes.install index {} fun _ => 1).2
  | notRetained : Effect pipes (.retain handle which) (.status status) pipes
  | retained (index : Fin tableCapacity) (found : pipes.find handle = some index) :
      Effect pipes (.retain handle which) (.status .success)
        (pipes.setReferences index which count)
  | notReleased : Effect pipes (.release handle which) (.status .badHandle) pipes
  | released (index : Fin tableCapacity) (found : pipes.find handle = some index) :
      Effect pipes (.release handle which) (.status .success) (pipes.drop index which {})
  | notRead : Effect pipes (.read handle count) (.read result []) pipes
  | read (index : Fin tableCapacity) (found : pipes.find handle = some index) :
      Effect pipes (.read handle count) (.read result ((pipes index).payload.read count).1)
        (pipes.setData index ((pipes index).payload.read count).2)
  | notWritten : Effect pipes (.write handle input) (.write ⟨status, 0⟩) pipes
  | written (index : Fin tableCapacity) (found : pipes.find handle = some index) :
      Effect pipes (.write handle input)
        (.write ⟨status, ((pipes index).payload.write input).1⟩)
        (pipes.setData index ((pipes index).payload.write input).2)

variable {pipes after : BufferedPipes tableCapacity bufferCapacity} {handle other : PipeHandle}
  {which : PipeEnd} {i : Fin tableCapacity} {atomicCapacity : Nat} {history : PipeHistory}

omit [NeZero bufferCapacity] in
theorem vacant_used (found : pipes.vacant = some i) : (pipes i).used = false := by
  have holds := List.find?_some found
  simpa using holds

theorem perform_effect (atomicCapacity : Nat) (pipes : BufferedPipes tableCapacity bufferCapacity)
    (call : PipeCall) :
    Effect pipes call (pipes.perform atomicCapacity call).1
      (pipes.perform atomicCapacity call).2 := by
  cases call with
  | create =>
    simp only [perform, PipeTable.create]
    cases found : pipes.vacant with
    | none => exact .notCreated
    | some i => exact .created i (vacant_used found)
  | retain handle which =>
    simp only [perform, PipeTable.retain]
    cases found : pipes.find handle with
    | none => exact .notRetained
    | some i =>
      simp only
      split
      · exact .notRetained
      · exact .retained i found
  | release handle which =>
    simp only [perform, PipeTable.release]
    cases found : pipes.find handle with
    | none => exact .notReleased
    | some i =>
      simp only
      split
      · exact .notReleased
      · exact .released i found
  | read handle count =>
    simp only [perform, read]
    cases found : pipes.find handle with
    | none => exact .notRead
    | some i =>
      simp only
      split
      · exact .notRead
      split
      · exact .notRead
      split
      · exact .read i found
      · split
        · exact .notRead
        · exact .notRead
  | write handle input =>
    simp only [perform, write]
    cases found : pipes.find handle with
    | none => exact .notWritten
    | some i =>
      simp only
      split
      · exact .notWritten
      split
      · exact .notWritten
      split
      · exact .notWritten
      split
      · exact .notWritten
      split
      next nothing =>
        have effect : Effect pipes (.write handle input)
            (.write ⟨.wouldBlock, _⟩) _ := .written i found
        rw [nothing] at effect
        exact effect
      · exact .written i found

/-! ## Streams -/

/-- All buffers are valid, and each pipe holds what was written to it and not yet read. -/
structure Streams (history : PipeHistory) (pipes : BufferedPipes tableCapacity bufferCapacity) :
    Prop where
  valid : ∀ index, (pipes index).payload.Valid
  stream : ∀ index : Fin tableCapacity, (pipes index).used = true →
    delivered index history ++ (pipes index).payload.contents = accepted index history

section
variable (streams : Streams history pipes)
include streams

theorem Streams.counted
    (quiet : ∀ slot, delivered slot (event :: history) = delivered slot history ∧
      accepted slot (event :: history) = accepted slot history)
    (kept : ∀ i, (after i).payload = (pipes i).payload ∨
      (after i).payload = {} ∧ (after i).used = false)
    (used : ∀ i, (after i).used = true → (pipes i).used = true) :
    Streams (event :: history) after where
  valid i := by
    rcases kept i with same | ⟨fresh, -⟩
    · rw [same]
      exact streams.valid i
    · rw [fresh]
      exact RingBuffer.valid_default
  stream i inUse := by
    rw [(quiet i).1, (quiet i).2]
    rcases kept i with same | ⟨-, unused⟩
    · rw [same]
      exact streams.stream i (used i inUse)
    · rw [unused] at inUse
      cases inUse

theorem Streams.moved {event : PipeCall × PipeAnswer}
    {data : RingBuffer bufferCapacity} (found : pipes.find handle = some i) (valid : data.Valid)
    (others : ∀ slot ≠ handle.slot, delivered slot (event :: history) = delivered slot history ∧
        accepted slot (event :: history) = accepted slot history)
    (stream : delivered handle.slot history ++ (pipes i).payload.contents =
        accepted handle.slot history →
      delivered handle.slot (event :: history) ++ data.contents =
        accepted handle.slot (event :: history)) :
    Streams (event :: history) (pipes.setData i data) where
  valid place := by
    by_cases same : place = i
    · subst same
      simpa [setData] using valid
    · simpa [setData, same] using streams.valid place
  stream place inUse := by
    obtain ⟨slot, used, -⟩ := find_eq_some.mp found
    by_cases same : place = i
    · subst same
      simp only [setData, update_self]
      rw [← slot]
      refine stream ?_
      rw [slot]
      exact streams.stream place used
    have apart : (place : Nat) ≠ handle.slot := by
      rw [slot]
      exact fun equal => same (Fin.ext equal)
    simp only [setData, update_of_ne same] at inUse ⊢
    rw [(others place apart).1, (others place apart).2]
    exact streams.stream place inUse

theorem Streams.effect (small : bufferCapacity < 2 ^ 31) (effect : Effect pipes call reply after) :
    Streams ((call, reply) :: history) after := by
  cases effect with
  | notCreated | notRetained | notReleased =>
    exact streams.counted (fun _ => ⟨rfl, rfl⟩) (fun _ => .inl rfl) fun _ used => used
  | notRead
  | notWritten =>
    refine streams.counted (fun slot => ?_) (fun _ => .inl rfl) fun _ used => used
    simp [delivered, accepted]
  | created i vacant =>
    constructor
    · intro place
      by_cases same : place = i
      · subst same
        simp only [install, update_self]
        exact RingBuffer.valid_default
      · simp only [install, update_of_ne same]
        exact streams.valid place
    intro place inUse
    by_cases same : place = i
    · subst same
      simp [install, delivered, accepted]
    · have apart : (i : Nat) ≠ place := fun equal => same (Fin.ext equal.symm)
      simp only [install, update_of_ne same] at inUse ⊢
      simp only [delivered, accepted, if_neg apart]
      exact streams.stream place inUse
  | retained i found =>
    refine streams.counted (fun _ => ⟨rfl, rfl⟩) (fun place => .inl ?_) fun place used => ?_
    · by_cases same : place = i
      · subst same
        simp [setReferences]
      · simp [setReferences, same]
    · by_cases same : place = i
      · subst same
        exact (find_eq_some.mp found).2.1
      · simpa [setReferences, same] using used
  | released i found =>
    refine streams.counted (fun _ => ⟨rfl, rfl⟩) (fun place => ?_) fun place used => ?_
    · by_cases same : place = i
      · subst same
        simp only [drop]
        split
        · exact .inr (by simp)
        · exact .inl (by simp [setReferences])
      · left
        simp only [drop]
        split <;> simp [setReferences, same]
    by_cases same : place = i
    · subst same
      exact (find_eq_some.mp found).2.1
    · simp only [drop] at used
      split at used <;> simpa [setReferences, same] using used
  | read i found =>
    obtain ⟨output, valid, contents⟩ := (streams.valid i).read small _
    refine streams.moved found valid (fun slot apart => ?_) fun before => ?_
    · simp [delivered, accepted, apart.symm]
    · simp only [delivered, accepted, if_true]
      rw [← before, output, contents, List.append_assoc, List.take_append_drop]
  | written i found =>
    obtain ⟨amount, valid, contents⟩ := (streams.valid i).write small _
    refine streams.moved found valid (fun slot apart => ?_) fun before => ?_
    · simp [delivered, accepted, apart.symm]
    · simp only [delivered, accepted, if_true]
      rw [← before, contents, List.append_assoc]

end

/-- After every run each pipe holds what was accepted and not delivered. -/
theorem Reached.streams (reached : Reached atomicCapacity history pipes)
    (small : bufferCapacity < 2 ^ 31) : Streams history pipes := by
  induction reached with
  | start => exact ⟨fun _ => RingBuffer.valid_default, fun _ used => by cases used⟩
  | call reached call ih => exact ih.effect small (perform_effect _ _ call)

/-! ## What a call leaves alone -/

def PipeCall.target : PipeCall → Option PipeHandle
  | .create => none
  | .retain handle _ => some handle
  | .release handle _ => some handle
  | .read handle _ => some handle
  | .write handle _ => some handle

omit [NeZero bufferCapacity] in
theorem index_ne (found : pipes.find handle = some i) (also : pipes.find other = some place)
    (apart : some handle ≠ some other) : place ≠ i := by
  rintro rfl
  obtain ⟨slot, -, generation⟩ := find_eq_some.mp found
  obtain ⟨slot', -, generation'⟩ := find_eq_some.mp also
  refine apart (congrArg some (Handle.ext ?_ ?_))
  · rw [← generation, ← generation']
  · rw [slot, slot']

/-- A call changes the pipe that it is made on, and no other. -/
theorem Effect.kept (effect : Effect pipes call reply after)
    (found : pipes.find other = some place) (apart : call.target ≠ some other) :
    after place = pipes place := by
  cases effect with
  | notCreated | notRetained | notReleased | notRead | notWritten => rfl
  | created i vacant =>
    have different : place ≠ i := by
      rintro rfl
      rw [(find_eq_some.mp found).2.1] at vacant
      cases vacant
    simp [install, different]
  | retained i target =>
    have different := index_ne target found apart
    simp [setReferences, different]
  | released i target =>
    have different := index_ne target found apart
    simp only [drop]
    split <;> simp [setReferences, different]
  | read i target
  | written i target =>
    have different := index_ne target found apart
    simp [setData, different]

/-! ## Handles that are gone -/

/-- The number of pipes created in a slot. -/
def creations (slot : Nat) : PipeHistory → Nat
  | [] => 0
  | (.create, .created .success handle) :: earlier =>
    creations slot earlier + if handle.slot = slot then 1 else 0
  | _ :: earlier => creations slot earlier

/-- The calls and answers, and the table, after some more calls. -/
def follow (atomicCapacity : Nat) (history : PipeHistory)
    (pipes : BufferedPipes tableCapacity bufferCapacity) :
    List PipeCall → PipeHistory × BufferedPipes tableCapacity bufferCapacity
  | [] => (history, pipes)
  | call :: rest =>
    follow atomicCapacity ((call, (pipes.perform atomicCapacity call).1) :: history)
      (pipes.perform atomicCapacity call).2 rest

/-- Every call on the handle is refused. -/
structure Rejects (atomicCapacity : Nat) (pipes : BufferedPipes tableCapacity bufferCapacity)
    (handle : PipeHandle) : Prop where
  retain : ∀ which, pipes.retain handle which = (.badHandle, pipes)
  release : ∀ which, pipes.release handle which = (.badHandle, pipes)
  read : ∀ count, pipes.read handle count = ((⟨.badHandle, 0⟩, []), pipes)
  write : ∀ input, pipes.write atomicCapacity handle input = (⟨.badHandle, 0⟩, pipes)

theorem rejects_of_find (missing : pipes.find handle = none) :
    Rejects atomicCapacity pipes handle where
  retain which := by rw [PipeTable.retain, missing]
  release which := by rw [PipeTable.release, missing]
  read count := by rw [BufferedPipes.read, missing]
  write input := by rw [BufferedPipes.write, missing]

/-- The slot of a handle that is gone, after a number of pipes were created there. -/
structure Gone (pipes : BufferedPipes tableCapacity bufferCapacity) (handle : PipeHandle)
    (index : Fin tableCapacity) (created : Nat) : Prop where
  slot : handle.slot = index
  generation : (pipes index).generation =
    nextGeneration^[created] handle.generation
  unused : created = 0 → (pipes index).used = false

omit [NeZero bufferCapacity] in
theorem Gone.find_eq_none (gone : Gone pipes handle i created) (known : handle.generation ≠ 0)
    (few : created < 65535) : pipes.find handle = none := by
  cases found : pipes.find handle with
  | none => rfl
  | some place =>
    obtain ⟨slot, used, generation⟩ := find_eq_some.mp found
    obtain rfl : place = i := Fin.ext (slot.symm.trans gone.slot)
    rcases Nat.eq_zero_or_pos created with none | some
    · rw [gone.unused none] at used
      cases used
    · rw [gone.generation] at generation
      exact absurd generation (iterate_nextGeneration_ne known some few)

/-- A slot changes its generation when a pipe is created in it, and comes into use then. -/
theorem Effect.slot (effect : Effect pipes call reply after) (history : PipeHistory)
    (i : Fin tableCapacity) :
    creations i ((call, reply) :: history) = creations i history + 1 ∧
        (after i).generation = nextGeneration (pipes i).generation ∨
      creations i ((call, reply) :: history) = creations i history ∧
        (after i).generation = (pipes i).generation ∧
        ((after i).used = true → (pipes i).used = true) := by
  cases effect with
  | notCreated | notRetained | notReleased | notRead | notWritten => exact .inr ⟨rfl, rfl, id⟩
  | created place vacant =>
    by_cases same : i = place
    · subst same
      exact .inl ⟨by simp [creations, install], by simp [install]⟩
    · have apart : (place : Nat) ≠ i := fun equal => same (Fin.ext equal.symm)
      exact .inr ⟨by simp [creations, install, apart],
        by simp [install, same], by simp [install, same]⟩
  | retained place found =>
    right
    by_cases same : i = place
    · subst same
      exact ⟨rfl, by simp [setReferences], fun _ => (find_eq_some.mp found).2.1⟩
    · exact ⟨rfl, by simp [setReferences, same], by simp [setReferences, same]⟩
  | released place found =>
    right
    by_cases same : i = place
    · subst same
      refine ⟨rfl, ?_, fun _ => (find_eq_some.mp found).2.1⟩
      simp only [drop]
      split <;> simp [setReferences]
    · simp only [drop]
      refine ⟨rfl, ?_, ?_⟩ <;> split <;> simp [setReferences, same]
  | read place found
  | written place found =>
    right
    by_cases same : i = place
    · subst same
      exact ⟨rfl, by simp [setData], by simp [setData]⟩
    · exact ⟨rfl, by simp [setData, same], by simp [setData, same]⟩

theorem Gone.effect (gone : Gone pipes handle i (creations handle.slot history))
    (effect : Effect pipes call reply after) :
    Gone after handle i (creations handle.slot ((call, reply) :: history)) where
  slot := gone.slot
  generation := by
    have slot := effect.slot history i
    have before := gone.generation
    rw [gone.slot] at before ⊢
    rcases slot with ⟨more, next⟩ | ⟨same, kept, -⟩
    · rw [more, next, before, iterate_succ_apply']
    · rw [same, kept, before]
  unused := by
    have slot := effect.slot history i
    have before := gone.unused
    rw [gone.slot] at before ⊢
    intro none
    rcases slot with ⟨more, -⟩ | ⟨same, -, used⟩
    · omega
    · rw [same] at none
      exact Bool.eq_false_of_not_eq_true fun now => by
        rw [before none] at used
        cases used now

theorem Gone.follow (gone : Gone pipes handle i (creations handle.slot history))
    (calls : List PipeCall) :
    Gone (follow atomicCapacity history pipes calls).2 handle i
      (creations handle.slot (follow atomicCapacity history pipes calls).1) := by
  induction calls generalizing history pipes with
  | nil => exact gone
  | cons call rest ih => exact ih (gone.effect (perform_effect _ pipes call))

theorem Reached.generation_ne_zero (reached : Reached atomicCapacity history pipes)
    (used : (pipes i).used = true) : (pipes i).generation ≠ 0 := by
  induction reached with
  | start => cases used
  | @call history pipes reached call ih =>
    rcases (perform_effect atomicCapacity pipes call).slot history i with
      ⟨-, next⟩ | ⟨-, kept, before⟩
    · rw [next]
      exact nextGeneration_ne_zero _
    · rw [kept]
      exact ih (before used)

omit [NeZero bufferCapacity] in
theorem gone_of_release (freed : (pipes.release handle which).1 = .success)
    (missing : (pipes.release handle which).2.find handle = none) :
    ∃ i, pipes.find handle = some i ∧ Gone (pipes.release handle which).2 handle i 0 := by
  unfold PipeTable.release at freed missing ⊢
  cases found : pipes.find handle with
  | none =>
    rw [found] at freed
    cases freed
  | some i =>
    obtain ⟨slot, used, generation⟩ := find_eq_some.mp found
    simp only [found] at freed missing ⊢
    split at freed
    · cases freed
    rename_i held
    rw [if_neg held] at missing ⊢
    have same : ((pipes.drop i which {}) i).generation = handle.generation := by
      rw [← generation, drop]
      split <;> simp [setReferences]
    refine ⟨i, rfl, slot, same, fun _ => ?_⟩
    rw [← Bool.not_eq_true]
    intro still
    have present := find_eq_some.mpr ⟨slot, still, same⟩
    rw [missing] at present
    cases present

/-! ## The results of reads and writes -/

theorem write_whole (short : input.length ≤ atomicCapacity) :
    (pipes.write atomicCapacity handle input).1 = ⟨.success, input.length⟩ ∨
      (pipes.write atomicCapacity handle input).1.status ≠ .success ∧
        (pipes.write atomicCapacity handle input).1.size = 0 := by
  unfold write
  cases found : pipes.find handle with
  | none => exact .inr ⟨by simp, rfl⟩
  | some i =>
    simp only
    split
    · exact .inr ⟨by simp, rfl⟩
    split
    next empty => exact .inl (by rw [empty])
    rename_i full
    split
    · exact .inr ⟨by simp, rfl⟩
    split
    · exact .inr ⟨by simp, rfl⟩
    rename_i room
    have amount : ((pipes i).payload.write input).1 = input.length := by
      simp only [RingBuffer.write]
      split
      · rfl
      · exact by omega
    left
    simp [amount, full]

theorem read_endOfFile (ended : (pipes.read handle count).1.1.status = .endOfFile) :
    ∃ i, pipes.find handle = some i ∧ (pipes i).references .write = 0 ∧
      (pipes i).payload.contents = [] := by
  unfold read at ended
  cases found : pipes.find handle with
  | none =>
    rw [found] at ended
    cases ended
  | some i =>
    simp only [found] at ended
    split at ended
    · cases ended
    split at ended
    · cases ended
    split at ended
    · cases ended
    rename_i empty
    split at ended
    next closed =>
      refine ⟨i, rfl, closed, RingBuffer.contents_eq_nil.mpr ?_⟩
      simpa [RingBuffer.empty] using empty
    · cases ended

theorem write_brokenPipe (broken : (pipes.write atomicCapacity handle input).1.status = .brokenPipe) :
    ∃ i, pipes.find handle = some i ∧ (pipes i).references .read = 0 := by
  unfold write at broken
  cases found : pipes.find handle with
  | none =>
    rw [found] at broken
    cases broken
  | some i =>
    simp only [found] at broken
    split at broken
    · cases broken
    split at broken
    · cases broken
    split at broken
    next closed => exact ⟨i, rfl, closed⟩
    split at broken
    · cases broken
    · split at broken
      · cases broken
      · cases broken

end BufferedPipes
end Mikos.Process
