import Mikos.Process.Calls

/-!
# Runs of the kernel

A trap dispatches the system call of the running process and stores its result.  Between
traps the running process changes its registers and its memory.
-/

namespace Mikos.Process
open Library Network

/-! ## Dispatch -/

/-- The calls of the model.  All others only work on user memory and files. -/
inductive SystemCall where
  | dup3 | fcntl | chdir | openat | close | pipe2 | lseek | read | write | pselect6 | ppoll
  | pselect6Time64 | ppoll64 | exit | waitid | setTidAddress | kill | tgkill | rtSigaction
  | rtSigprocmask | setpgid | setsid | umask | socket | bind | listen | accept | accept4
  | shutdown | brk | clone | execve | mmap2 | wait4 | other
  deriving DecidableEq, Repr

namespace SystemCall

def numbers : List (UInt32 × SystemCall) :=
  [(24, .dup3), (25, .fcntl), (49, .chdir), (56, .openat), (57, .close), (59, .pipe2),
    (62, .lseek), (63, .read), (64, .write), (72, .pselect6), (73, .ppoll), (93, .exit),
    (94, .exit), (95, .waitid), (96, .setTidAddress), (129, .kill), (131, .tgkill),
    (134, .rtSigaction), (135, .rtSigprocmask), (154, .setpgid), (157, .setsid), (166, .umask),
    (198, .socket), (200, .bind), (201, .listen), (202, .accept), (210, .shutdown), (214, .brk),
    (220, .clone), (221, .execve), (222, .mmap2), (242, .accept4), (260, .wait4),
    (413, .pselect6Time64), (414, .ppoll64)]

def ofNumber (number : UInt32) : SystemCall := (numbers.lookup number).getD .other

end SystemCall

namespace Kernel
variable (machine : Machine) (kernel : Kernel) (moment : Moment)

def runs (call : Running → UInt32 × Running) : Outcome :=
  let (result, running) := call kernel.toRunning
  { result, kernel := { kernel with toRunning := running } }

/-- `dispatch_syscall`. -/
def dispatch : Halting Outcome :=
  let a0 := kernel.context.frame.argument 0
  let a1 := kernel.context.frame.argument 1
  let a2 := kernel.context.frame.argument 2
  let a3 := kernel.context.frame.argument 3
  let a4 := kernel.context.frame.argument 4
  match SystemCall.ofNumber kernel.context.frame.number with
  | .dup3 => .ok (kernel.runs fun running => running.duplicateTo machine a0.toNat a1.toNat a2)
  | .fcntl => .ok (kernel.runs fun running => running.fcntl machine a0 a1 a2)
  | .chdir => .ok (kernel.runs fun running => running.chdir machine a0)
  | .openat => .ok (kernel.runs fun running => running.openat machine moment a0 a1 a2)
  | .close => .ok (kernel.runs fun running => running.close machine a0)
  | .pipe2 => .ok (kernel.runs fun running => running.pipe2 a0 a1)
  | .lseek => .ok (kernel.runs fun running => running.lseek a0 a1)
  | .read => kernel.read machine moment a0 a1 a2
  | .write => .ok (kernel.runs fun running => running.write machine moment a0 a1 a2)
  | .pselect6 => kernel.pselect6 machine moment a0 a1 a2 a3 a4 false
  | .ppoll => kernel.ppoll machine moment a0 a1 a2 false
  | .pselect6Time64 => kernel.pselect6 machine moment a0 a1 a2 a3 a4 true
  | .ppoll64 => kernel.ppoll machine moment a0 a1 a2 true
  | .exit => kernel.exit machine a0
  | .waitid => .ok (kernel.waitid a0 a1 a2 a3)
  | .setTidAddress => .ok (kernel.runs fun running => running.setTidAddress a0)
  | .kill => .ok (kernel.sendSignal a0 a1)
  | .tgkill =>
    .ok (if a0.toNat = kernel.context.pid then kernel.sendSignal a1 a2 else kernel.fails .noEntry)
  | .rtSigaction => .ok (kernel.runs fun running => running.rtSigaction a0 a1 a2 a3)
  | .rtSigprocmask => .ok (kernel.runs fun running => running.rtSigprocmask a0 a1 a2 a3)
  | .setpgid => .ok (kernel.setpgid a0 a1)
  | .setsid => .ok (kernel.runs fun running => running.setsid)
  | .umask => .ok (kernel.runs fun running => running.umask a0)
  | .socket => .ok (kernel.runs fun running => running.socket machine a0 a1 a2)
  | .bind => .ok (kernel.runs fun running => running.bind a0 a1 a2)
  | .listen => .ok (kernel.runs fun running => running.listen a0 a1)
  | .accept => kernel.accept machine moment a0 a1 a2 0
  | .accept4 => kernel.accept machine moment a0 a1 a2 a3
  | .shutdown => .ok (kernel.runs fun running => running.shutdownSocket machine a0 a1)
  | .brk => .ok (kernel.runs fun running => running.brk a0)
  | .clone => .ok (kernel.clone machine a0 a1 a4)
  | .execve => .ok (kernel.execve machine a0 a1 a2)
  | .mmap2 => .ok (kernel.runs fun running => running.mmap a0 a1 a3)
  | .wait4 => .ok (kernel.wait4 a0 a1)
  | .other => .ok { result := moment.arrived.getD 0, kernel }

/-- The result is stored in the frame of the process that runs now.  A new image and a resumed
process start at their own instruction. -/
def finish (result : UInt32) : Kernel :=
  let frame := kernel.context.frame.setResult result
  { kernel with
    context.frame := if kernel.imageReplaced then frame else frame.advance
    imageReplaced := false }

/-- A trap of the running process.  A call that waits is taken up again. -/
def trap : Halting (Switch × Kernel) := do
  let outcome ← kernel.dispatch machine moment
  .ok (outcome.switch,
    if outcome.switch = .waits then outcome.kernel else outcome.kernel.finish outcome.result)

/-! ## Events -/

/-- The running process stores bytes in user memory. -/
def store (bytes : Bytes) : Kernel :=
  { kernel with
    memory := fun address => if UserAddress address then bytes address else kernel.memory address }

/-- Data moves in pipes and pseudo-terminals. -/
def transfer (pipes : Fin 8 → List UInt8) (ptys : Fin 4 → Terminal) : Kernel :=
  { kernel with
    channels.pipes := fun index => { kernel.channels.pipes index with payload := pipes index }
    channels.ptys := fun index => { kernel.channels.ptys index with payload := ptys index } }

end Kernel

/-- What can happen to a kernel. -/
inductive Event where
  /-- The running process computes, and signals are delivered to it and return. -/
  | user (frame : TrapFrame) (bytes : Bytes) (pending blocked : UInt64)
      (signalFrame : ActiveSignalFrame)
  /-- The running process makes a system call. -/
  | call (moment : Moment)
  /-- The network is polled or configured. -/
  | start (device : Option MacAddress)
  | poll (now : UInt64) (frame : Option (List UInt8))
  | ioctl (request : UInt32) (value : Ifreq32)
  /-- Bytes move in pipes and pseudo-terminals. -/
  | transfer (pipes : Fin 8 → List UInt8) (ptys : Fin 4 → Terminal)
  /-- The file system changes. -/
  | files (files : Files)

namespace Kernel
variable (machine : Machine)

/-- The kernel after an event, or the code with which the machine stopped. -/
def step (kernel : Kernel) : Event → Halting (Switch × Kernel)
  | .user frame bytes pending blocked signalFrame =>
    .ok (.stays,
      { kernel.store bytes with
        context :=
          { kernel.context with
            frame
            signals := { kernel.context.signals with pending, blocked }
            signalFrame } })
  | .call moment => kernel.trap machine moment
  | .start device =>
    .ok (.stays,
      { kernel with channels.network := (kernel.channels.network.initializeStack device).2 })
  | .poll now frame =>
    .ok (.stays,
      { kernel with channels.network := kernel.channels.network.poll machine.driver now frame })
  | .ioctl request value =>
    .ok (.stays,
      { kernel with channels.network := (kernel.channels.network.ioctl request value).2 })
  | .transfer pipes ptys => .ok (.stays, kernel.transfer pipes ptys)
  | .files files => .ok (.stays, { kernel with files })

/-- The switches of a sequence of events and the kernel after them. -/
def course (kernel : Kernel) : List Event → Halting (List Switch × Kernel)
  | [] => .ok ([], kernel)
  | event :: events => do
    let (switch, kernel) ← kernel.step machine event
    let (switches, kernel) ← kernel.course events
    .ok (switch :: switches, kernel)

/-- The states of the suspended processes and of the children before the first fork: there
is one process. -/
structure Started (kernel : Kernel) : Prop where
  pid : kernel.context.pid = 1
  parentPid : kernel.context.parentPid = 0
  replaced : kernel.imageReplaced = false
  descriptors : kernel.descriptors = .closed
  channels : kernel.channels = {}
  suspended : kernel.suspended = {}
  children : kernel.children = fun _ => {}
  nextPid : kernel.nextPid = 2
  arena : kernel.arena = (SnapshotArena.start {} machine.arenaBegin userBegin).2
  mutableBegin : userBegin ≤ kernel.context.mutableBegin ∧ kernel.context.mutableBegin ≤ userEnd
  brk : userBegin ≤ kernel.context.brk ∧ kernel.context.brk ≤ userEnd
  mmap : userBegin ≤ kernel.context.mmapBegin ∧
    kernel.context.mmapBegin ≤ kernel.context.mmapCursor ∧
    kernel.context.mmapCursor ≤ userStackTop

def boot : Kernel :=
  { context :=
      { pid := 1, mutableBegin := userBegin, brk := userBegin, mmapBegin := userBegin,
        mmapCursor := userBegin }
    arena := (SnapshotArena.start {} machine.arenaBegin userBegin).2 }

theorem started_boot : Started machine (boot machine) :=
  ⟨rfl, rfl, rfl, rfl, rfl, rfl, rfl, rfl, rfl,
    show userBegin ≤ userBegin ∧ userBegin ≤ userEnd by decide,
    show userBegin ≤ userBegin ∧ userBegin ≤ userEnd by decide,
    show userBegin ≤ userBegin ∧ userBegin ≤ userBegin ∧ userBegin ≤ userStackTop by decide⟩

end Kernel

/-- The running process gets ready for a call. -/
def Event.prepare (number : UInt32) (arguments : List UInt32) : Event :=
  .user (.calling number arguments) zeroBytes 0 0 {}

end Mikos.Process
