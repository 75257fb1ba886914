import Mikos.Process.Loader
import Mikos.Process.Steps

/-!
# Calls that fail

What an `execve` and an `openat` that fail leave behind.
-/

namespace Mikos.Process
open Library
namespace Kernel
variable {machine : Machine} {kernel kernel' : Kernel}

theorem Reachable.course (reached : Reachable machine kernel)
    (went : kernel.course machine events = .ok (switches, kernel')) :
    Reachable machine kernel' := by
  induction events generalizing kernel switches with
  | nil =>
    cases went
    exact reached
  | cons event events ih =>
    obtain ⟨switch, between, rest, stepped, goes, -⟩ := course_cons.mp went
    exact ih (reached.step stepped) goes

/-! ## `execve` -/

theorem loadExecutable_refused
    (refused : loadExecutable machine files node writableOnly memory = (none, memory')) :
    memory' = memory := by
  rw [loadExecutable] at refused
  split at refused
  · exact loadPreloadedImage_refused refused
  · exact loadImage_refused refused

/-- The program that a path names is loaded over the memory, and then found to leave no room
for a heap below the stack. -/
def Oversized (machine : Machine) (kernel : Kernel) (path : Text) (image : Image) (memory : Bytes) :
    Prop :=
  ∃ node, kernel.files path = some node ∧ ¬ (node.type ≠ .regular ∨ node.mode &&& 0o111 = 0) ∧
    sameFile kernel.files busyboxPath node = false ∧
    loadExecutable machine kernel.files node false kernel.memory = (some image, memory) ∧
    userStackTop - heapReserve < image.brk

/-- A call of `execve` that passes its checks loads a program that it then refuses, over
something else. -/
def ExecveDestroys (machine : Machine) (kernel : Kernel) (path argv envp : UInt32) : Prop :=
  ∃ arguments environment image memory,
    ExecveReads machine kernel path argv envp arguments environment ∧
    Oversized machine kernel (kernel.executableNode machine path).2 image memory ∧
    ¬ (memory = kernel.memory ∧ image.brk = kernel.context.brk ∧
      image.mutableBegin = kernel.context.mutableBegin)

theorem Oversized.unique (first : Oversized machine kernel path image memory)
    (second : Oversized machine kernel path image' memory') :
    image' = image ∧ memory' = memory := by
  obtain ⟨node, file, -, -, loaded, -⟩ := first
  obtain ⟨node', file', -, -, loaded', -⟩ := second
  cases file.symm.trans file'
  cases loaded.symm.trans loaded'
  exact ⟨rfl, rfl⟩

theorem replaceWithExecutable_refused
    (refused : kernel.replaceWithExecutable machine path arguments environment = (false, kernel')) :
    ((∀ image memory, ¬ Oversized machine kernel path image memory) ∧ kernel' = kernel) ∨
      ∃ image memory, Oversized machine kernel path image memory ∧ kernel' =
        { kernel with
          memory
          context :=
            { kernel.context with brk := image.brk, mutableBegin := image.mutableBegin } } := by
  rw [replaceWithExecutable] at refused
  split at refused
  next missing =>
    cases refused
    refine .inl ⟨?_, rfl⟩
    rintro image memory ⟨node, file, -⟩
    cases missing.symm.trans file
  rename_i node file
  split at refused
  next special =>
    cases refused
    refine .inl ⟨?_, rfl⟩
    rintro image memory ⟨other, found, plain, -⟩
    cases file.symm.trans found
    exact plain special
  rename_i plain
  dsimp only at refused
  split at refused
  next memory loaded =>
    cases refused
    rw [loadExecutable_refused loaded]
    refine .inl ⟨?_, rfl⟩
    rintro image memory' ⟨other, found, -, different, loads, -⟩
    cases file.symm.trans found
    rw [different, loads] at loaded
    cases loaded
  rename_i image memory loaded
  split at refused
  next high =>
    cases refused
    rw [high.1] at loaded
    exact .inr ⟨image, memory, ⟨node, file, plain, high.1, loaded, high.2⟩, rfl⟩
  · cases refused

/-- A program of one segment, whose end is too close to the stack. -/
def oversized : FileNode :=
  { mode := 0o111
    size := 84
    bytes := fun position =>
      [0x7f, 0x45, 0x4c, 0x46, 1, 1, 1, 0, 0, 0, 0, 0, 0, 0, 0, 0, 2, 0, 243, 0, 1, 0, 0, 0,
        0, 0, 0, 0x81, 52, 0, 0, 0, 0, 0, 0, 0, 0, 0, 0, 0, 52, 0, 32, 0, 1, 0, 0, 0, 0, 0, 0, 0,
        1, 0, 0, 0, 0, 0, 0, 0, 0, 0, 0, 0x81, 0, 0, 0, 0x81, 84, 0, 0, 0, 0, 0, 0xf8, 0,
        7, 0, 0, 0, 0, 0x10, 0, 0].getD position 0 }

/-- The name of the program, and a table of arguments that holds it. -/
def oversizedCall : Bytes :=
  put32 (put32 zeroBytes 0x81000100 0x81000200) 0x81000200 0x612f

end Kernel

/-! ## `openat` -/

namespace Running

/-- A process that has no descriptor left, with a path in its memory. -/
def crowded : Running :=
  { descriptors := fun _ => { node := .standardInput }
    memory := put32 zeroBytes 0x81000000 0x612f }

end Running
end Mikos.Process
