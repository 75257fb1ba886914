import Mikos.Library.Ring
import Mikos.Process.Channels

/-!
# Pipes with their buffers

A table of pipes for any number of pipes, size of their buffers and size of writes that are
not split.  The bytes of a pipe lie in a circular buffer.
-/

namespace Mikos.Process
open Library List

/-! ## The circular buffer -/

structure RingBuffer (capacity : Nat) where
  data : Fin capacity → UInt8 := fun _ => 0
  head : Nat := 0
  size : Nat := 0
  deriving Inhabited

namespace RingBuffer
variable {capacity : Nat}

def freeSpace (ring : RingBuffer capacity) : Nat := capacity - ring.size

def empty (ring : RingBuffer capacity) : Bool := ring.size = 0

def full (ring : RingBuffer capacity) : Bool := ring.size = capacity

variable [NeZero capacity]

/-- The loop of `write`, from the byte with the given number on. -/
def store (head size : Nat) (data : Fin capacity → UInt8) : Nat → List UInt8 →
    Fin capacity → UInt8
  | _, [] => data
  | number, byte :: rest =>
    store head size
      (Function.update data (Fin.ofNat capacity (wrap 32 (head + size + number))) byte)
      (number + 1) rest

def write (ring : RingBuffer capacity) (input : List UInt8) : Nat × RingBuffer capacity :=
  let amount := if input.length < ring.freeSpace then input.length else ring.freeSpace
  (amount,
    { ring with
      data := store ring.head ring.size ring.data 0 (input.take amount)
      size := ring.size + amount })

def read (ring : RingBuffer capacity) (count : Nat) : List UInt8 × RingBuffer capacity :=
  let amount := if count < ring.size then count else ring.size
  ((List.range amount).map fun number =>
      ring.data (Fin.ofNat capacity (wrap 32 (ring.head + number))),
    { ring with head := wrap 32 (ring.head + amount) % capacity, size := ring.size - amount })

/-- The bytes in the buffer, in the order in which they were written. -/
def contents (ring : RingBuffer capacity) : List UInt8 := window ring.data ring.head ring.size

/-- The bytes begin in the buffer, and there are no more than it holds. -/
structure Valid (ring : RingBuffer capacity) : Prop where
  head : ring.head < capacity
  size : ring.size ≤ capacity

variable {ring : RingBuffer capacity}

theorem valid_default : Valid ({} : RingBuffer capacity) :=
  ⟨Nat.pos_of_ne_zero (NeZero.ne capacity), Nat.zero_le capacity⟩

@[simp] theorem contents_default : ({} : RingBuffer capacity).contents = [] := rfl

@[simp] theorem length_contents : ring.contents.length = ring.size := length_window

theorem contents_eq_nil : ring.contents = [] ↔ ring.size = 0 := by
  rw [← length_eq_zero_iff, length_contents]

theorem store_eq_fill {head size number : Nat} {data : Fin capacity → UInt8}
    (small : head + size + number + input.length ≤ 2 ^ 32) :
    store head size data number input = fill data (head + size + number) input := by
  induction input generalizing data number with
  | nil => rfl
  | cons byte rest ih =>
    rw [length_cons] at small
    rw [store, fill, wrap_of_lt (by omega), ih (by omega)]
    rfl

theorem Valid.write (valid : ring.Valid) (small : capacity < 2 ^ 31) (input : List UInt8) :
    (ring.write input).1 = min input.length ring.freeSpace ∧ (ring.write input).2.Valid ∧
      (ring.write input).2.contents = ring.contents ++ input.take (ring.write input).1 := by
  have amount : (ring.write input).1 = min input.length ring.freeSpace := by
    simp only [RingBuffer.write]
    split <;> omega
  have room : ring.size + (input.take (ring.write input).1).length ≤ capacity := by
    rw [length_take, amount, freeSpace]
    have size := valid.size
    omega
  have taken : (input.take (ring.write input).1).length = (ring.write input).1 := by
    rw [length_take, amount]
    omega
  refine ⟨amount, ⟨valid.head, ?_⟩, ?_⟩
  · rw [taken] at room
    exact room
  have stored : (ring.write input).2.data =
      fill ring.data (ring.head + ring.size) (input.take (ring.write input).1) := by
    have head := valid.head
    show store ring.head ring.size ring.data 0 (input.take (ring.write input).1) = _
    rw [store_eq_fill (by omega)]
    rfl
  have filled : window (fill ring.data (ring.head + ring.size)
      (input.take (ring.write input).1)) ring.head _ = _ := window_fill room
  rw [taken] at filled
  rw [contents, contents, stored]
  exact filled

theorem Valid.read (valid : ring.Valid) (small : capacity < 2 ^ 31) (count : Nat) :
    (ring.read count).1 = ring.contents.take count ∧ (ring.read count).2.Valid ∧
      (ring.read count).2.contents = ring.contents.drop count := by
  have head := valid.head
  have size := valid.size
  obtain ⟨amount, chosen, enough, same⟩ : ∃ amount,
      amount = (if count < ring.size then count else ring.size) ∧ amount ≤ ring.size ∧
      (count = amount ∨ ring.size ≤ count ∧ amount = ring.size) := by
    refine ⟨_, rfl, ?_, ?_⟩
    · split <;> omega
    · split
      · exact .inl rfl
      next large => exact .inr ⟨by omega, rfl⟩
  have front : ring.contents.take count = ring.contents.take amount := by
    rcases same with rfl | ⟨large, rfl⟩
    · rfl
    · rw [take_of_length_le (by simpa using large), take_of_length_le (by simp)]
  have back : ring.contents.drop count = ring.contents.drop amount := by
    rcases same with rfl | ⟨large, rfl⟩
    · rfl
    · rw [drop_of_length_le (by simpa using large), drop_of_length_le (by simp)]
  rw [front, back]
  simp only [RingBuffer.read, ← chosen]
  refine ⟨?_, ⟨Nat.mod_lt _ (Nat.pos_of_ne_zero (NeZero.ne capacity)), ?_⟩, ?_⟩
  · rw [contents, window_take enough, window]
    refine map_congr_left fun number mem => ?_
    rw [mem_range] at mem
    rw [wrap_of_lt (by omega)]
  · simp only
    omega
  · rw [contents, contents, window_drop enough, wrap_of_lt (by omega)]
    exact window_mod

end RingBuffer

/-! ## The table -/

structure PipeIoResult where
  status : PipeStatus := .badHandle
  size : Nat := 0
  deriving DecidableEq, Repr

abbrev BufferedPipes (tableCapacity bufferCapacity : Nat) :=
  PipeTable tableCapacity (RingBuffer bufferCapacity)

namespace BufferedPipes
variable {tableCapacity bufferCapacity : Nat}

def setData (pipes : BufferedPipes tableCapacity bufferCapacity) (index : Fin tableCapacity)
    (data : RingBuffer bufferCapacity) : BufferedPipes tableCapacity bufferCapacity :=
  Function.update pipes index { pipes index with payload := data }

variable [NeZero bufferCapacity]

/-- The result of a read, with the bytes that it stores for the caller. -/
def read (pipes : BufferedPipes tableCapacity bufferCapacity) (handle : PipeHandle)
    (count : Nat) :
    (PipeIoResult × List UInt8) × BufferedPipes tableCapacity bufferCapacity :=
  match pipes.find handle with
  | none => (({}, []), pipes)
  | some index =>
    let pipe := pipes index
    if pipe.references .read = 0 then (({}, []), pipes)
    else if count = 0 then ((⟨.success, 0⟩, []), pipes)
    else if ¬ pipe.payload.empty then
      let (output, data) := pipe.payload.read count
      ((⟨.success, output.length⟩, output), pipes.setData index data)
    else if pipe.references .write = 0 then ((⟨.endOfFile, 0⟩, []), pipes)
    else ((⟨.wouldBlock, 0⟩, []), pipes)

def write (atomicCapacity : Nat) (pipes : BufferedPipes tableCapacity bufferCapacity)
    (handle : PipeHandle) (input : List UInt8) :
    PipeIoResult × BufferedPipes tableCapacity bufferCapacity :=
  match pipes.find handle with
  | none => ({}, pipes)
  | some index =>
    let pipe := pipes index
    if pipe.references .write = 0 then ({}, pipes)
    else if input.length = 0 then (⟨.success, 0⟩, pipes)
    else if pipe.references .read = 0 then (⟨.brokenPipe, 0⟩, pipes)
    else if input.length ≤ atomicCapacity ∧ pipe.payload.freeSpace < input.length then
      (⟨.wouldBlock, 0⟩, pipes)
    else
      let (amount, data) := pipe.payload.write input
      (if amount = 0 then ⟨.wouldBlock, 0⟩ else ⟨.success, amount⟩, pipes.setData index data)

/-! ## Runs -/

inductive PipeCall where
  | create
  | retain (handle : PipeHandle) (which : PipeEnd)
  | release (handle : PipeHandle) (which : PipeEnd)
  | read (handle : PipeHandle) (count : Nat)
  | write (handle : PipeHandle) (input : List UInt8)
  deriving DecidableEq, Repr

inductive PipeAnswer where
  | created (status : PipeStatus) (handle : PipeHandle)
  | status (value : PipeStatus)
  | read (result : PipeIoResult) (output : List UInt8)
  | write (result : PipeIoResult)
  deriving DecidableEq, Repr

def perform (atomicCapacity : Nat) (pipes : BufferedPipes tableCapacity bufferCapacity) :
    PipeCall → PipeAnswer × BufferedPipes tableCapacity bufferCapacity
  | .create =>
    let ((status, handle), after) := pipes.create
    (.created status handle, after)
  | .retain handle which =>
    let (status, after) := pipes.retain handle which
    (.status status, after)
  | .release handle which =>
    let (status, after) := pipes.release handle which
    (.status status, after)
  | .read handle count =>
    let ((result, output), after) := pipes.read handle count
    (.read result output, after)
  | .write handle input =>
    let (result, after) := pipes.write atomicCapacity handle input
    (.write result, after)

/-- The calls made so far with their answers, the latest first. -/
abbrev PipeHistory := List (PipeCall × PipeAnswer)

/-- The tables that calls lead to. -/
inductive Reached (atomicCapacity : Nat) :
    PipeHistory → BufferedPipes tableCapacity bufferCapacity → Prop where
  | start : Reached atomicCapacity [] PipeTable.initial
  | call (reached : Reached atomicCapacity history pipes) (call : PipeCall) :
      Reached atomicCapacity ((call, (pipes.perform atomicCapacity call).1) :: history)
        (pipes.perform atomicCapacity call).2

/-- The bytes that writes to the pipe in a slot took since it was created. -/
def accepted (slot : Nat) : PipeHistory → List UInt8
  | [] => []
  | (.create, .created .success handle) :: earlier =>
    if handle.slot = slot then [] else accepted slot earlier
  | (.write handle input, .write result) :: earlier =>
    accepted slot earlier ++ if handle.slot = slot then input.take result.size else []
  | _ :: earlier => accepted slot earlier

/-- The bytes that reads from the pipe in a slot returned since it was created. -/
def delivered (slot : Nat) : PipeHistory → List UInt8
  | [] => []
  | (.create, .created .success handle) :: earlier =>
    if handle.slot = slot then [] else delivered slot earlier
  | (.read handle _, .read _ output) :: earlier =>
    delivered slot earlier ++ if handle.slot = slot then output else []
  | _ :: earlier => delivered slot earlier

end BufferedPipes
end Mikos.Process
