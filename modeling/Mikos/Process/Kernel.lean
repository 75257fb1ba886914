import Mikos.Process.Descriptors

/-!
# Processes in one address space

All processes use the same user memory, so at most one of them is there.  The others are
suspended in records: the parent of the running process, its older ancestors on a stack, a
process parked on a socket, a process parked on its terminal, and the parent of the latter
while an ancestor serves the terminal.  A record keeps the registers and the process state,
and the bytes of three regions in a snapshot.

Processes change in six ways: `clone`, `exit`, the two ways to park and the two ways to
resume a parked process.
-/

namespace Mikos.Process
open Library Network

/-! ## Records -/

/-- Which file a process runs; only this decides whether its image is loaded again. -/
inductive ImageTag where
  | busybox | other
  deriving DecidableEq, Repr

/-- The state of a process apart from its memory and descriptors.  All records keep the same
fields of it. -/
structure Context where
  frame : TrapFrame := {}
  brk : Nat := 0
  mmapBegin : Nat := 0
  mmapCursor : Nat := 0
  mutableBegin : Nat := 0
  image : ImageTag := .busybox
  pid : Nat := 0
  parentPid : Nat := 0
  processGroup : Nat := 0
  session : Nat := 0
  childTidAddress : Nat := 0
  signals : SignalState := {}
  signalFrame : ActiveSignalFrame := {}
  fileCreationMask : UInt32 := 0
  currentDirectory : Text := []
  executablePath : Text := []

/-- A context with the regions of memory that were saved for it. -/
structure SavedContext extends Context where
  stackBegin : Nat := 0
  mutableSize : Nat := 0
  mmapSize : Nat := 0
  stackSize : Nat := 0
  snapshot : SnapshotAllocation := .invalid

structure SuspendedParent extends SavedContext where
  childStatus : UInt32 := 0
  childPid : Nat := 0
  childProcessGroup : Nat := 0
  active : Bool := false
  memorySaved : Bool := false
  childWaitable : Bool := false

inductive BackgroundWait where
  | none | socketRead
  deriving DecidableEq, Repr

structure ParkedBackground extends SavedContext where
  waitSocket : SocketHandle := invalidSocket
  wait : BackgroundWait := .none
  used : Bool := false

structure ParkedInteractiveChild extends SavedContext where
  waitPty : PtyHandle := {}
  waitEnd : PtyEnd := .slave
  used : Bool := false

structure WaitableChild where
  pid : Nat := 0
  parentPid : Nat := 0
  processGroup : Nat := 0
  status : UInt32 := 0
  used : Bool := false
  deriving DecidableEq, Repr

def processContextCapacity : Nat := 32

/-- The table of children that have exited. -/
abbrev WaitableChildren := Fin processContextCapacity → WaitableChild

namespace SavedContext

/-- The regions in the order in which they stand in the snapshot. -/
def regions (saved : SavedContext) : List Span :=
  [⟨saved.mutableBegin, saved.mutableSize⟩, ⟨saved.mmapBegin, saved.mmapSize⟩,
    ⟨saved.stackBegin, saved.stackSize⟩]

/-- Save the regions of a context: whether they were saved, and the record.  The three kinds
of records do this in the same way; the sizes of a record that was not saved are not used. -/
def saveMemory (saved : SavedContext) (arena : SnapshotArena) (memory : Bytes) :
    Bool × SavedContext × SnapshotArena × Bytes :=
  if saved.brk < saved.mutableBegin ∨ saved.mmapCursor < saved.mmapBegin ∨
      userStackTop < saved.stackBegin then
    (false, saved, arena, memory)
  else
    let sized :=
      { saved with
        mutableSize := saved.brk - saved.mutableBegin
        mmapSize := saved.mmapCursor - saved.mmapBegin
        stackSize := userStackTop - saved.stackBegin }
    let total := totalSize sized.regions
    if 2 ^ 32 - 1 < total then
      (false, sized, arena, memory)
    else
      match arena.allocate total with
      | (snapshot, arena) =>
        if SnapshotAllocation.Valid snapshot then
          (true, { sized with snapshot }, arena, pack sized.regions snapshot.address memory)
        else (false, { sized with snapshot }, arena, memory)

/-- The memory with the regions put back. -/
def restoreMemory (saved : SavedContext) (memory : Bytes) : Bytes :=
  unpack saved.regions saved.snapshot.address memory

end SavedContext

namespace Context

/-- The record of a context whose stack is saved from an address on. -/
def record (context : Context) (stack : Nat) : SavedContext :=
  { toContext := context, stackBegin := alignDown stack 16 }

end Context

/-! ## The suspended processes -/

def nestedAncestorCapacity : Nat := processContextCapacity

/-- All records, each with the descriptors of its process.  The nearest of the older ancestors
comes first. -/
structure Suspended where
  parent : SuspendedParent := {}
  parentDescriptors : DescriptorTable := .closed
  nested : List (SuspendedParent × DescriptorTable) := []
  background : ParkedBackground := {}
  backgroundDescriptors : DescriptorTable := .closed
  interactiveChild : ParkedInteractiveChild := {}
  interactiveChildDescriptors : DescriptorTable := .closed
  interactiveParent : SuspendedParent := {}
  interactiveParentDescriptors : DescriptorTable := .closed
  interactiveRelayServicePid : Nat := 0

namespace Suspended
variable (suspended : Suspended)

/-- `stack_suspended_ancestor`: make room for another parent. -/
def stackAncestor : Option Suspended :=
  if suspended.parent.active = false ∨ suspended.parent.memorySaved = false ∨
      ¬ SnapshotAllocation.Valid suspended.parent.snapshot ∨
      SnapshotAllocation.Valid suspended.background.snapshot ∨
      suspended.nested.length = nestedAncestorCapacity then
    none
  else
    some
      { suspended with
        nested := (suspended.parent, suspended.parentDescriptors) :: suspended.nested
        parent := {}
        parentDescriptors := .closed
        background := {} }

/-- The nearest older ancestor becomes the parent. -/
def popAncestor : Suspended :=
  match suspended.nested with
  | [] => suspended
  | (parent, parentDescriptors) :: nested => { suspended with parent, parentDescriptors, nested }

def captureBackground (context : Context) (waitSocket : SocketHandle) (wait : BackgroundWait) :
    Suspended :=
  { suspended with
    background :=
      { suspended.background with
        toContext := context
        stackBegin := alignDown context.frame.stack 16
        waitSocket
        wait
        used := true } }

/-- `reinstate_suspended_ancestor`: the running process is remembered as the background one
when an ancestor becomes its parent. -/
def reinstateAncestor (context : Context) : Suspended :=
  if suspended.nested = [] then suspended
  else (suspended.captureBackground context invalidSocket .none).popAncestor

/-- Whether the parent of a process parked on its terminal is kept aside, while an ancestor of
it serves the terminal. -/
def relayed : Bool := suspended.interactiveParent.active

def nearestAncestorOwnsPtyMaster (handle : PtyHandle) : Bool :=
  suspended.nested.head?.any fun ancestor => ancestor.2.ownsPtyMaster handle

/-- Set the parent of the process that parks aside, for the ancestor that serves its
terminal. -/
def relay : Suspended :=
  let aside :=
    { suspended with
      interactiveParent := suspended.parent
      interactiveParentDescriptors := suspended.parentDescriptors }.popAncestor
  { aside with interactiveRelayServicePid := aside.parent.pid }

/-- Take the parent that was set aside back. -/
def unrelay : Suspended :=
  { suspended with
    parent := suspended.interactiveParent
    parentDescriptors := suspended.interactiveParentDescriptors
    interactiveParent := {}
    interactiveParentDescriptors := .closed
    interactiveRelayServicePid := 0 }

end Suspended

/-! ## The kernel -/

abbrev Files := Text → Option FileNode

/-- The running process and what its system calls work on. -/
structure Running where
  context : Context := {}
  descriptors : DescriptorTable := .closed
  channels : Channels := {}
  memory : Bytes := zeroBytes
  files : Files := fun _ => none

structure Kernel extends Running where
  imageReplaced : Bool := false
  suspended : Suspended := {}
  children : WaitableChildren := fun _ => {}
  nextPid : Nat := 2
  arena : SnapshotArena := {}

/-- A computation that may stop the machine with a code. -/
abbrev Halting (α : Type) := Except Nat α

namespace Kernel
variable (machine : Machine)

/-! ### Executables -/

def busyboxPath : Text := text ['/', 'b', 'i', 'n', '/', 'b', 'u', 's', 'y', 'b', 'o', 'x']

def dropbearPath : Text :=
  text ['/', 'u', 's', 'r', '/', 's', 'b', 'i', 'n', '/', 'd', 'r', 'o', 'p', 'b', 'e', 'a', 'r']

def sameFile (files : Files) (path : Text) (node : FileNode) : Bool :=
  (files path).any fun file => file.inode = node.inode

/-- Load an executable, from the kernel's own copy if it has one. -/
def loadExecutable (files : Files) (node : FileNode) (writableOnly : Bool) (memory : Bytes) :
    Option Image × Bytes :=
  if machine.interactive ∧ sameFile files dropbearPath node then
    loadPreloadedImage node machine.dropbearBegin machine.dropbearSize memory
  else loadImage node writableOnly memory

/-- `restore_executable_image`: whether the file could be loaded, and the memory. -/
def restoreExecutableImage (files : Files) (path : Text) (memory : Bytes) : Bool × Bytes :=
  match files path with
  | none => (false, memory)
  | some node =>
    let (image, memory) := loadExecutable machine files node false memory
    (image.isSome, memory)

variable (kernel : Kernel)

/-- Load the image of a suspended process; the machine stops if that fails. -/
def reload (path : Text) : Halting Bytes :=
  match restoreExecutableImage machine kernel.files path kernel.memory with
  | (true, memory) => .ok memory
  | (false, _) => .error 9

/-- The memory in which a process with a given image can be put back. -/
def reloadIfReplaced (saved : SavedContext) : Halting Bytes :=
  if kernel.context.image ≠ saved.image then kernel.reload machine saved.executablePath
  else .ok kernel.memory

def releaseSnapshot (arena : SnapshotArena) (allocation : SnapshotAllocation) :
    Halting SnapshotArena :=
  if ¬ SnapshotAllocation.Valid allocation then .ok arena
  else
    match arena.release allocation with
    | (.success, arena) => .ok arena
    | _ => .error 9

/-! ### Children that have exited -/

def firstUnused (children : WaitableChildren) : Option (Fin processContextCapacity) :=
  (List.finRange processContextCapacity).find? fun index => !(children index).used

def waitableSpace (children : WaitableChildren) : Bool := (firstUnused children).isSome

/-- `publish_child_exit`: whether there was an entry for the child. -/
def publishChildExit (children : WaitableChildren) (child : WaitableChild) :
    Bool × WaitableChildren :=
  match firstUnused children with
  | none => (false, children)
  | some index => (true, Function.update children index { child with used := true })

/-! ### Descriptors -/

/-- Close all descriptors of the running process. -/
def resetDescriptors : Kernel :=
  { kernel with
    channels := kernel.descriptors.reset machine kernel.channels
    descriptors := .closed }

/-- Keep a copy of the running process's descriptors for its record. -/
def saveParentDescriptors : Bool × Kernel :=
  let (saved, parentDescriptors, channels) :=
    kernel.descriptors.save machine kernel.suspended.parentDescriptors kernel.channels
  (saved, { kernel with suspended.parentDescriptors := parentDescriptors, channels })

def discardParentDescriptors : Kernel :=
  { kernel with
    channels := kernel.suspended.parentDescriptors.reset machine kernel.channels
    suspended.parentDescriptors := .closed }

def saveParentMemory : Bool × Kernel :=
  if kernel.suspended.parent.memorySaved then (true, kernel)
  else
    match kernel.suspended.parent.toSavedContext.saveMemory kernel.arena kernel.memory with
    | (saved, record, arena, memory) =>
      (saved,
        { kernel with
          suspended.parent :=
            { kernel.suspended.parent with toSavedContext := record, memorySaved := saved }
          arena
          memory })

/-- Put the running process into the parent's record, whose descriptors have been saved.  On
failure the record is not active and its descriptors are closed. -/
def suspendRunning (stack childPid : Nat) : Bool × Kernel :=
  let recorded :=
    { kernel with
      suspended.parent :=
        { kernel.suspended.parent with
          toSavedContext := kernel.context.record stack
          childPid
          active := true
          memorySaved := false } }
  match recorded.saveParentMemory with
  | (true, suspended) => (true, suspended)
  | (false, refused) =>
    (false, { refused with suspended.parent.active := false }.discardParentDescriptors machine)

/-! ### Return to the parent -/

/-- The frame with which the parent goes on: that of its call, or behind its `clone`. -/
def parentFrame (parent : SuspendedParent) (returnFromClone : Bool) : TrapFrame :=
  if returnFromClone then (parent.frame.setResult (UInt32.ofNat parent.childPid)).advance
  else parent.frame

/-- The exit of the running process is reported to its parent. -/
def completeChild (child : WaitableChild) : Kernel :=
  let (published, children) := publishChildExit kernel.children child
  { kernel with
    children
    context.signals := kernel.context.signals.queue signalChild
    suspended.parent :=
      { kernel.suspended.parent with
        childStatus := child.status
        childProcessGroup := child.processGroup
        childWaitable := published || kernel.suspended.parent.childWaitable } }

/-- The parent takes the place of the running process, in a memory that holds its image and
with its snapshot given back. -/
def adoptParent (memory : Bytes) (arena : SnapshotArena) (status : UInt32)
    (childCompleted returnFromClone : Bool) : Kernel :=
  let parent := kernel.suspended.parent
  let resumed :=
    { kernel with
      memory := if parent.memorySaved then parent.restoreMemory memory else memory
      arena
      context := { parent.toContext with frame := parentFrame parent returnFromClone }
      imageReplaced := true
      suspended.parent.snapshot :=
        if parent.memorySaved then .invalid else parent.snapshot }
  let child : WaitableChild :=
    { pid := parent.childPid, parentPid := parent.pid
      processGroup := kernel.context.processGroup, status }
  let reported := if childCompleted then resumed.completeChild child else resumed
  let closed := reported.resetDescriptors machine
  { closed with
    descriptors := closed.suspended.parentDescriptors
    suspended :=
      { closed.suspended with
        parent := { closed.suspended.parent with active := false, memorySaved := false }
        parentDescriptors := .closed } }

def resumeParent (status : UInt32) (childCompleted returnFromClone : Bool) :
    Halting Kernel := do
  let parent := kernel.suspended.parent
  let memory ← kernel.reloadIfReplaced machine parent.toSavedContext
  let arena ←
    if parent.memorySaved then releaseSnapshot kernel.arena parent.snapshot else .ok kernel.arena
  .ok (kernel.adoptParent machine memory arena status childCompleted returnFromClone)

/-! ### `clone` -/

def cloneSystemCall : UInt32 := 220

/-- The stack of the child. -/
def cloneStack (frame : TrapFrame) (stack : UInt32) : Nat :=
  if stack = 0 then frame.stack else stack.toNat

/-- Only plain forks and `vfork` are supported. -/
def CloneAccepts (frame : TrapFrame) (flags stack childTid : UInt32) : Prop :=
  let behavior := flags &&& ~~~0xff
  (behavior &&& ~~~(0x00200000 ||| 0x01000000) = 0 ∨ behavior = 0x100 ||| 0x4000) ∧
    flags &&& 0xff = 17 ∧ UserContains (cloneStack frame stack) 1 ∧
    (flags &&& (0x01000000 ||| 0x00200000) ≠ 0 →
      UserContains childTid.toNat 4 ∧ childTid.toNat % 4 = 0)
deriving Decidable

/-- The running process is the child that its parent waits for. -/
def NestedFork : Prop :=
  kernel.suspended.parent.active ∧ kernel.context.pid = kernel.suspended.parent.childPid
deriving Decidable

/-- The child goes on in place of the running process. -/
def becomeChild (flags childTid : UInt32) : Kernel :=
  let pid := kernel.suspended.parent.childPid
  { kernel with
    context :=
      { kernel.context with
        pid
        parentPid := kernel.suspended.parent.pid
        childTidAddress := if flags &&& 0x00200000 ≠ 0 then childTid.toNat else 0 }
    memory :=
      if flags &&& 0x01000000 ≠ 0 then put32 kernel.memory childTid.toNat pid else kernel.memory }

/-- What changed hands in a call. -/
inductive Switch where
  | stays | waits | forks | ends | parksBackground | parksInteractive
  | resumesBackground | resumesInteractive | startsStress
  deriving DecidableEq, Repr

structure Outcome where
  switch : Switch := .stays
  result : UInt32
  kernel : Kernel

def fails (value : Errno) : Outcome := { result := error value, kernel }

/-- A `clone` that could not be carried out puts an ancestor back as the parent. -/
def cloneRefused : Outcome :=
  { kernel with
    suspended := kernel.suspended.reinstateAncestor kernel.context }.fails .noMemory

def clone (flags stack childTid : UInt32) : Outcome :=
  let childStack := if stack = 0 then kernel.context.frame.stack else stack.toNat
  if ¬ CloneAccepts kernel.context.frame flags stack childTid then
    kernel.fails .invalidArgument
  else if kernel.suspended.parent.active ∧ ¬ kernel.NestedFork then
    kernel.fails .invalidArgument
  else if (kernel.NestedFork ∧ kernel.suspended.nested.length = nestedAncestorCapacity) ∨
      waitableSpace kernel.children = false then
    kernel.fails .noMemory
  else
    match if kernel.NestedFork then kernel.suspended.stackAncestor else some kernel.suspended with
    | none => kernel.fails .noMemory
    | some suspended =>
      match { kernel with suspended }.saveParentDescriptors machine with
      | (false, refused) => refused.cloneRefused
      | (true, kept) =>
        -- the number is used up even if the memory cannot be saved
        match { kept with nextPid := wrap 32 (kept.nextPid + 1) }.suspendRunning machine
            childStack kept.nextPid with
        | (false, refused) => refused.cloneRefused
        | (true, forked) =>
          { switch := .forks, result := 0, kernel := forked.becomeChild flags childTid }

/-! ### `exit` -/

/-- The word at which the parent of a process waits for its end is cleared. -/
def clearChildTid : Kernel :=
  let address := kernel.context.childTidAddress
  { kernel with
    memory :=
      if address ≠ 0 ∧ UserContains address 4 then put32 kernel.memory address 0
      else kernel.memory
    context.childTidAddress := 0 }

/-- The running process is no longer remembered as the background one. -/
def forgetBackground : Kernel :=
  if kernel.suspended.background.used ∧ kernel.context.pid = kernel.suspended.background.pid then
    { kernel with
      suspended.background := { kernel.suspended.background with used := false, wait := .none } }
  else kernel

/-- The exit of a process with a parent that waits for it. -/
def exitToParent (status : UInt32) : Halting Outcome := do
  let childPid := kernel.suspended.parent.childPid
  let resumed ←
    kernel.clearChildTid.forgetBackground.resumeParent machine status true true
  .ok
    { switch := .ends
      result := UInt32.ofNat childPid
      kernel :=
        { resumed with
          suspended := resumed.suspended.reinstateAncestor resumed.context } }

/-! ### Parking -/

/-- The parent's call was a `clone`, from which it has not returned yet. -/
def firstPark (parent : SuspendedParent) : Bool := parent.frame.number = cloneSystemCall

/-- The running process stays in memory while it waits for the peer of a connection, unless
the terminal needs the shell. -/
def holdsConnection (socket : SocketHandle) (uartReady : Bool) : Bool :=
  machine.interactive &&
    (kernel.channels.network.sockets.slot socket).any (fun waiting => waiting.state ≠ .listening) &&
    (kernel.channels.network.socketReadable socket ||
      !(kernel.suspended.nested.length = 0 && uartReady))

/-- `park_background`: whether the running process was parked. -/
def parkBackground (socket : SocketHandle) (uartReady : Bool) : Halting (Bool × Kernel) :=
  if kernel.suspended.parent.active = false ∨ kernel.holdsConnection machine socket uartReady then
    .ok (false, kernel)
  else if kernel.suspended.background.used ∧
      kernel.context.pid ≠ kernel.suspended.background.pid then
    .ok (false, kernel)
  else
    let captured := kernel.suspended.captureBackground kernel.context socket .socketRead
    match captured.background.toSavedContext.saveMemory kernel.arena kernel.memory with
    | (false, record, arena, memory) =>
      .ok (false,
        { kernel with
          suspended :=
            { captured with
              background := { captured.background with toSavedContext := record, used := false } }
          arena
          memory })
    | (true, record, arena, memory) => do
      let parked :=
        { kernel with
          suspended :=
            { captured with
              background := { captured.background with toSavedContext := record }
              backgroundDescriptors := kernel.descriptors }
          descriptors := .closed
          arena
          memory }
      let resumed ← parked.resumeParent machine 0 false (firstPark parked.suspended.parent)
      .ok (true, resumed)

/-- `park_interactive_child`: whether the running process was parked. -/
def parkInteractiveChild (waitPty : PtyHandle) (waitEnd : PtyEnd) : Halting (Bool × Kernel) :=
  let direct := kernel.suspended.parentDescriptors.ownsPtyMaster waitPty
  let relay := !direct && !kernel.suspended.relayed &&
    kernel.suspended.nearestAncestorOwnsPtyMaster waitPty
  if kernel.suspended.interactiveChild.used ∨ kernel.suspended.parent.active = false ∨
      waitEnd ≠ .slave ∨ (direct = false ∧ relay = false) then
    .ok (false, kernel)
  else
    match (kernel.context.record kernel.context.frame.stack).saveMemory kernel.arena
        kernel.memory with
    | (false, _, arena, memory) =>
      .ok (false, { kernel with suspended.interactiveChild := {}, arena, memory })
    | (true, record, arena, memory) => do
      let suspended :=
        { kernel.suspended with
          interactiveChild := { toSavedContext := record, waitPty, waitEnd, used := true }
          interactiveChildDescriptors := kernel.descriptors }
      let parked :=
        { kernel with
          suspended := if relay then suspended.relay else suspended
          descriptors := .closed
          arena
          memory }
      let resumed ← parked.resumeParent machine 0 false (firstPark parked.suspended.parent)
      .ok (true, resumed)

/-! ### Resuming parked processes -/

/-- Put a parked process back in place of the running one, which has been suspended. -/
def restoreParked (saved : SavedContext) (descriptors : DescriptorTable) (reloaded : Bytes) :
    Halting Kernel := do
  let arena ← releaseSnapshot kernel.arena saved.snapshot
  .ok
    { kernel with
      arena
      memory := saved.restoreMemory reloaded
      descriptors
      context := saved.toContext
      imageReplaced := true }

def backgroundReady : Bool :=
  let background := kernel.suspended.background
  background.used && background.wait = .socketRead && background.waitSocket ≠ invalidSocket &&
    kernel.channels.network.socketReadable background.waitSocket

/-- `resume_background_if_ready`: whether the parked process was resumed. -/
def resumeBackgroundIfReady : Halting (Bool × Kernel) :=
  if kernel.backgroundReady = false ∨ kernel.suspended.parent.active then
    .ok (false, kernel)
  else
    match kernel.saveParentDescriptors machine with
    | (false, refused) => .ok (false, refused)
    | (true, kept) =>
      match kept.suspendRunning machine kernel.context.frame.stack
          kernel.suspended.background.pid with
      | (false, refused) => .ok (false, refused)
      | (true, suspended) => do
        let closed := suspended.resetDescriptors machine
        let background := closed.suspended.background
        let memory ← closed.reload machine background.executablePath
        let restored ← closed.restoreParked background.toSavedContext
          closed.suspended.backgroundDescriptors memory
        .ok (true,
          { restored with
            suspended.background := { background with snapshot := .invalid, wait := .none }
            suspended.backgroundDescriptors := .closed })

def pseudoTerminalReady : Bool :=
  let child := kernel.suspended.interactiveChild
  child.used && kernel.channels.ptys.readable child.waitPty child.waitEnd

/-- A signal ends the wait of the process on its terminal. -/
def waitInterrupted : Bool :=
  kernel.suspended.interactiveChild.used &&
    kernel.suspended.interactiveChild.signals.hasDeliverable

/-- `pty_child_can_resume`. -/
def interactiveChildCanResume : Bool :=
  let child := kernel.suspended.interactiveChild
  let relayPid :=
    if kernel.suspended.relayed then kernel.suspended.interactiveRelayServicePid else 0
  child.used &&
    (kernel.context.pid = child.parentPid || (relayPid ≠ 0 && kernel.context.pid = relayPid)) &&
    !kernel.suspended.parent.active && (kernel.pseudoTerminalReady || kernel.waitInterrupted)

/-- The server of the terminal goes below the parent that was set aside. -/
def stackRelay : Halting Kernel :=
  if kernel.suspended.relayed then
    match kernel.suspended.stackAncestor with
    | none => .error 9
    | some suspended => .ok { kernel with suspended := suspended.unrelay }
  else .ok kernel

/-- `resume_interactive_child_if_ready`: whether the parked process was resumed. -/
def resumeInteractiveChildIfReady : Halting (Bool × Kernel) :=
  if kernel.interactiveChildCanResume = false ∨
      (kernel.suspended.relayed ∧ kernel.suspended.nested.length = nestedAncestorCapacity) then
    .ok (false, kernel)
  else
    match kernel.saveParentDescriptors machine with
    | (false, refused) => .ok (false, refused)
    | (true, kept) =>
      let childPid :=
        if kernel.suspended.relayed then kernel.suspended.interactiveParent.pid
        else kernel.suspended.interactiveChild.pid
      match kept.suspendRunning machine kernel.context.frame.stack childPid with
      | (false, refused) => .ok (false, refused)
      | (true, suspended) => do
        let stacked ← suspended.stackRelay
        let closed := stacked.resetDescriptors machine
        let child := closed.suspended.interactiveChild
        let memory ← closed.reloadIfReplaced machine child.toSavedContext
        let restored ← closed.restoreParked child.toSavedContext
          closed.suspended.interactiveChildDescriptors memory
        .ok (true,
          { restored with
            context.frame :=
              if kernel.waitInterrupted then
                (child.frame.setResult (error .interrupted)).advance
              else child.frame
            suspended.interactiveChild := {}
            suspended.interactiveChildDescriptors := .closed })

end Kernel
end Mikos.Process
