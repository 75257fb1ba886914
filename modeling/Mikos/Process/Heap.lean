import Mikos.Process.Refusals

/-!
# The heap and mapped pages

The heap of a program grows from the program's end, and mapped pages lie behind one another from
a fixed distance on.  `brk` compares the end of the heap with the end of the mapped pages and
not with their begin.
-/

namespace Mikos.Process
open Library Kernel
namespace Running

/-- The pages that a call of `mmap` returns. -/
def mapped (running : Running) (address size flags : UInt32) : List Span :=
  let result := (running.mmap address size flags).1.toNat
  if result < userEnd then [⟨result, alignUp size.toNat 4096⟩] else []

section Calls
variable (Allowed : Running → UInt32 → Prop) (start : Running)

/-- The mapped pages, the latest first, and the process after calls of `brk` with allowed
arguments and of `mmap`.  In between the process stores bytes. -/
inductive MemoryRun : List Span → Running → Prop where
  | start : MemoryRun [] start
  | store (run : MemoryRun pages running) (memory : Bytes) : MemoryRun pages { running with memory }
  | brk (run : MemoryRun pages running) (address : UInt32) (allowed : Allowed running address) :
      MemoryRun pages (running.brk address).2
  | mmap (run : MemoryRun pages running) (address size flags : UInt32) (plain : flags &&& 0x10 = 0) :
      MemoryRun (running.mapped address size flags ++ pages) (running.mmap address size flags).2

/-- An end of the heap that is refused, or lies between the program and the mapped pages. -/
def Modest (running : Running) (address : UInt32) : Prop :=
  userBegin ≤ address.toNat → address.toNat < running.context.mmapCursor →
    start.context.brk ≤ address.toNat ∧ address.toNat ≤ start.context.mmapBegin

/-- The heap ends below the mapped pages, which are in user memory and do not meet. -/
structure HeapApart (pages : List Span) (running : Running) : Prop where
  brk : start.context.brk ≤ running.context.brk ∧ running.context.brk ≤ start.context.mmapBegin
  cursor : userBegin ≤ start.context.mmapBegin ∧
    start.context.mmapBegin ≤ running.context.mmapCursor ∧ running.context.mmapCursor ≤ userStackTop
  inside : ∀ page ∈ pages, UserContains page.address page.size ∧
    start.context.mmapBegin ≤ page.address ∧ page.address + page.size ≤ running.context.mmapCursor
  apart : pages.Pairwise Span.Apart

end Calls

variable {start running : Running} {pages : List Span}

/-- A mapping fails, or its pages follow the last ones. -/
theorem mapped_maps {address size flags : UInt32} (plain : flags &&& 0x10 = 0) :
    running.mapped address size flags = [] ∧ (running.mmap address size flags).2 = running ∨
      ∃ pages : Span, running.mapped address size flags = [pages] ∧
        pages.address = running.context.mmapCursor ∧ UserContains pages.address pages.size ∧
        pages.address + pages.size ≤ userStackTop ∧
        (running.mmap address size flags).2 =
          { running with
            context.mmapCursor := pages.address + pages.size
            memory := splice running.memory pages.address pages.size zeroBytes } := by
  have maps := @mmap_maps running address size flags
  rw [mapped]
  generalize running.mmap address size flags = outcome at maps
  cases maps with
  | unmapped result failed => exact .inl ⟨if_neg (Nat.not_lt.mpr (failed plain)), rfl⟩
  | @mapped pages first rounded user fits =>
    have top : userStackTop < userEnd ∧ userEnd < 2 ^ 32 := by decide
    have number : (UInt32.ofNat pages.address).toNat = pages.address := by
      rw [UInt32.toNat_ofNat', Nat.mod_eq_of_lt (by omega)]
    refine .inr ⟨pages, ?_, first, user, fits, rfl⟩
    rw [number, if_pos (by omega), ← rounded]

variable {address size flags : UInt32}

theorem HeapApart.grow (apart : HeapApart start pages running)
    (modest : Modest start running address) : HeapApart start pages (running.brk address).2 := by
  refine { apart with brk := ?_ }
  have brk := apart.brk
  rw [Running.brk]
  split
  next inside => exact modest inside.2.1 inside.2.2
  · exact brk

theorem HeapApart.mmap (apart : HeapApart start pages running) (plain : flags &&& 0x10 = 0) :
    HeapApart start (running.mapped address size flags ++ pages)
      (running.mmap address size flags).2 := by
  obtain ⟨none, same⟩ | ⟨page, some, first, user, fits, done⟩ := mapped_maps plain
  · rw [none, same]
    exact apart
  rw [some, done]
  have cursor := apart.cursor
  refine ⟨apart.brk, ⟨cursor.1, ?_, fits⟩, fun other mem => ?_, List.pairwise_cons.mpr
    ⟨fun other mem => .inr (first ▸ (apart.inside other mem).2.2), apart.apart⟩⟩
  · dsimp only
    omega
  rcases List.mem_cons.mp mem with rfl | mem
  · exact ⟨user, first ▸ cursor.2.1, Nat.le_refl _⟩
  · obtain ⟨user, low, high⟩ := apart.inside other mem
    refine ⟨user, low, ?_⟩
    dsimp only
    omega

theorem MemoryRun.apart (run : MemoryRun (Modest start) start pages running)
    (first : HeapApart start [] start) : HeapApart start pages running := by
  induction run with
  | start => exact first
  | store run memory ih => exact { ih with }
  | brk run address modest ih => exact ih.grow modest
  | mmap run address size flags plain ih => exact ih.mmap plain

/-- After every `execve` whose image ends below the mapped pages, calls of `brk` with modest
arguments and any calls of `mmap` keep the heap and the pages apart; new pages are zero. -/
theorem heap_apart {machine : Machine} {kernel : Kernel} {path argv envp : UInt32}
    (reached : Reachable machine kernel)
    (executed : (kernel.execve machine path argv envp).result = 0)
    (starts : (kernel.execve machine path argv envp).kernel.toRunning = start)
    (low : start.context.brk ≤ start.context.mmapBegin)
    (run : MemoryRun (Modest start) start pages running) :
    HeapApart start pages running ∧
      ∀ address size flags, flags &&& 0x10 = 0 → ∀ page ∈ running.mapped address size flags,
        ∀ place, page.Contains place → (running.mmap address size flags).2.memory place = 0 := by
  refine ⟨run.apart ⟨⟨Nat.le_refl _, low⟩, ?_, by simp, .nil⟩, ?_⟩
  · obtain ⟨leaked, sound⟩ := reached.sound
    obtain ⟨value, fails⟩ | ⟨_, _, replaced, after, -, -, executes, done⟩ :=
      execve_executes sound.stocked.orderly.parent path argv envp
    · rw [fails] at executed
      cases value <;> cases executed
    rw [done] at executed starts
    cases starts
    have bounded := executes.bounded sound.bounded
    cases executes with
    | replaced => exact ⟨bounded.mmapBegin, Nat.le_refl _, bounded.mmapCursor.2⟩
    | _ => cases executed
  intro address size flags plain page member place inside
  obtain ⟨none, -⟩ | ⟨pages, some, -, -, -, done⟩ := @mapped_maps running address size flags plain
  · rw [none] at member
    cases member
  · rw [some, List.mem_singleton] at member
    rw [done, ← member]
    exact splice_inside inside

/-- A program of one page is run. -/
def smallCourse : List Event :=
  [.files fun path => if path = text ['/', 'a'] then
      some { oversized with bytes := put32 oversized.bytes 72 0x1000 } else none,
    .user (.calling 221 []) oversizedCall 0 0 {}]

/-- After the program has mapped a page, it can put the end of its heap there. -/
theorem smallCourse_executes :
    ∃ kernel start, Reachable {} kernel ∧ (kernel.execve {} 0x81000200 0x81000100 0).result = 0 ∧
      (kernel.execve {} 0x81000200 0x81000100 0).kernel.toRunning = start ∧
      start.context.brk = 0x81001000 ∧ start.context.mmapBegin = 0x81081000 ∧
      start.mapped 0 1 0 = [⟨0x81081000, 0x1000⟩] ∧
      ((start.mmap 0 1 0).2.brk 0x81081800).2.context.brk = 0x81081800 := by
  have seen : ((boot {}).course {} smallCourse).map (fun went =>
      let done := went.2.execve {} 0x81000200 0x81000100 0
      (done.result, done.kernel.context.brk, done.kernel.context.mmapBegin,
        done.kernel.toRunning.mapped 0 1 0,
        ((done.kernel.toRunning.mmap 0 1 0).2.brk 0x81081800).2.context.brk)) =
      .ok (0, 0x81001000, 0x81081000, [⟨0x81081000, 0x1000⟩], 0x81081800) := by
    decide +kernel
  obtain ⟨⟨switches, kernel⟩, went, view⟩ := Halting.exists_of_map seen
  simp only [Prod.mk.injEq] at view
  exact ⟨kernel, _, (Reachable.start (started_boot {})).course went, view.1, rfl, view.2⟩

/-- The program maps a page, makes its heap a page larger and maps two more pages. -/
theorem heap_apart_small :
    ∃ start : Running, start.context.brk = 0x81001000 ∧
      let grown := ((start.mmap 0 1 0).2.brk 0x81002000).2
      HeapApart start (grown.mapped 0 0x1001 0 ++ (start.mapped 0 1 0 ++ []))
        (grown.mmap 0 0x1001 0).2 := by
  obtain ⟨kernel, start, reached, executed, starts, brk, mapped, -⟩ := smallCourse_executes
  have low : start.context.brk ≤ start.context.mmapBegin := by
    rw [brk, mapped]
    decide
  have modest : Modest start (start.mmap 0 1 0).2 0x81002000 := by
    rw [Modest, brk, mapped]
    exact fun _ _ => by decide
  exact ⟨start, brk, (heap_apart reached executed starts low
    (.mmap (.brk (.mmap .start 0 1 0 (by decide)) _ modest) 0 0x1001 0 (by decide))).1⟩

/-- The heap grows over a page that was mapped behind it. -/
theorem heap_overlaps :
    ∃ kernel start pages running page, Reachable {} kernel ∧
      (kernel.execve {} 0x81000200 0x81000100 0).result = 0 ∧
      (kernel.execve {} 0x81000200 0x81000100 0).kernel.toRunning = start ∧
      MemoryRun (fun _ _ => True) start pages running ∧
      page ∈ pages ∧ start.context.brk < page.address ∧ page.address < running.context.brk := by
  obtain ⟨kernel, start, reached, executed, starts, first, -, mapped, brk⟩ := smallCourse_executes
  refine ⟨kernel, start, _, _, ⟨0x81081000, 0x1000⟩, reached, executed, starts,
    .brk (.mmap .start 0 1 0 (by decide)) 0x81081800 trivial, ?_, ?_, ?_⟩
  · rw [mapped]
    exact List.mem_cons_self
  · rw [first]
    decide
  · rw [brk]
    decide

end Running
end Mikos.Process
