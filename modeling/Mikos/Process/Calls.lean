import Mikos.Process.Kernel

/-!
# System calls

The calls that work on the running process alone are functions of `Running`; they cannot
reach the records of other processes.  The calls that look at other processes follow.
Calls that wait are given one turn of their loop, with what that turn finds outside of the
kernel.
-/

namespace Mikos.Process
open Library Network Function

/-- What a call meets outside of the kernel: the result of a transfer or a wait for which
something has arrived, whether the call has waited before, the descriptor on which it goes on
waiting, whether there is terminal input, and the answers of the file system to the creation
and the truncation of a file. -/
structure Moment where
  arrived : Option UInt32 := none
  waited : Bool := false
  watched : Nat := 0
  uartReady : Bool := false
  created : Option FileNode := none
  truncated : Bool := false

namespace Running
variable (machine : Machine) (running : Running)

def fails (value : Errno) : UInt32 × Running := (error value, running)

/-! ## Addresses and names -/

def brk (address : UInt32) : UInt32 × Running :=
  let context := running.context
  let brk :=
    if address ≠ 0 ∧ userBegin ≤ address.toNat ∧ address.toNat < context.mmapCursor then
      address.toNat
    else context.brk
  (UInt32.ofNat brk, { running with context := { context with brk } })

def mmap (address size flags : UInt32) : UInt32 × Running :=
  let rounded := alignUp size.toNat 4096
  let result := running.context.mmapCursor
  if size = 0 then
    running.fails .invalidArgument
  else if rounded < size.toNat then
    running.fails .noMemory
  else if flags &&& 0x10 ≠ 0 then
    if UserContains address.toNat rounded then (address, running) else running.fails .noMemory
  else if ¬ UserContains result rounded ∨ userStackTop ≤ result ∨
      userStackTop - result < rounded then
    running.fails .noMemory
  else
    (UInt32.ofNat result,
      { running with
        context.mmapCursor := result + rounded
        memory := splice running.memory result rounded zeroBytes })

def umask (mask : UInt32) : UInt32 × Running :=
  (running.context.fileCreationMask, { running with context.fileCreationMask := mask &&& 0o777 })

def setsid : UInt32 × Running :=
  let pid := running.context.pid
  if running.context.processGroup = pid then running.fails .accessDenied
  else
    (UInt32.ofNat pid, { running with context.processGroup := pid, context.session := pid })

def setTidAddress (address : UInt32) : UInt32 × Running :=
  (UInt32.ofNat running.context.pid, { running with context.childTidAddress := address.toNat })

/-! ## Signals -/

def littleU64 (data : Bytes) (offset : Nat) : UInt64 :=
  UInt64.ofNat (littleU32 data offset + 2 ^ 32 * littleU32 data (offset + 4))

def put64 (data : Bytes) (offset : Nat) (value : UInt64) : Bytes :=
  splice data offset 8 (littleBytes value.toNat)

/-- The layout of an action in user memory. -/
def putAction (data : Bytes) (offset : Nat) (action : SignalAction) : Bytes :=
  put64 (put32 (put32 data offset action.handler.toNat) (offset + 4) action.flags.toNat)
    (offset + 8) action.mask

def rtSigaction (signal action old size : UInt32) : UInt32 × Running :=
  if size ≠ 8 ∨ signalMax < signal.toNat then
    running.fails .invalidArgument
  else if old ≠ 0 ∧ ¬ UserContains old.toNat 16 then
    running.fails .badAddress
  else
    let current := running.context.signals.action signal.toNat
    let reported :=
      if old = 0 then running
      else { running with memory := putAction running.memory old.toNat current }
    if action = 0 then
      (0, reported)
    else if ¬ UserContains action.toNat 16 then
      reported.fails .badAddress
    else
      let requested : SignalAction :=
        { handler := UInt32.ofNat (littleU32 reported.memory action.toNat)
          flags := UInt32.ofNat (littleU32 reported.memory (action.toNat + 4))
          mask := littleU64 reported.memory (action.toNat + 8) }
      match reported.context.signals.setAction signal.toNat requested with
      | (.success, signals) => (0, { reported with context.signals := signals })
      | _ => reported.fails .invalidArgument

def rtSigprocmask (operation set old size : UInt32) : UInt32 × Running :=
  if size ≠ 8 then
    running.fails .invalidArgument
  else if old ≠ 0 ∧ ¬ UserContains old.toNat 8 then
    running.fails .badAddress
  else
    let reported :=
      if old = 0 then running
      else { running with memory := put64 running.memory old.toNat running.context.signals.blocked }
    let change (operation : SignalMaskOperation) : UInt32 × Running :=
      (0,
        { reported with
          context.signals := reported.context.signals.changeMask operation
            (littleU64 reported.memory set.toNat) })
    if set = 0 then (0, reported)
    else if ¬ UserContains set.toNat 8 then reported.fails .badAddress
    else if operation = 0 then change .block
    else if operation = 1 then change .unblock
    else if operation = 2 then change .set
    else reported.fails .invalidArgument

/-! ## Names of files -/

inductive PathNode where
  | none
  | terminal (number : Nat)
  | pseudo (node : PseudoNode)
  | file (node : FileNode)

namespace PathNode

def directory : PathNode → Bool
  | .pseudo node => node.directory
  | .file node => node.type = .directory
  | _ => false

def size : PathNode → Nat
  | .pseudo node => node.size
  | .file node => node.size
  | _ => 0

/-- The node that a descriptor gets. -/
def node : PathNode → Node
  | .pseudo node => .pseudo node
  | .file node => .filesystem node.inode node.type
  | _ => .none

end PathNode

def ptsStem : Text := text ['/', 'd', 'e', 'v', '/', 'p', 't', 's', '/']

/-- `path_node_from`, with the canonical path as far as it was written. -/
def pathNodeFrom (address : Nat) (base : Text) : PathNode × Text :=
  match copyUserString running.memory address Path.capacity with
  | none => (.none, [])
  | some name =>
    match Path.canonicalize base name with
    | (false, canonical) => (.none, canonical)
    | (true, canonical) =>
      let terminal := (Path.numberedSuffix canonical ptsStem 4).filter fun number =>
        (running.channels.ptys (Fin.ofNat 4 number)).used
      match terminal, machine.pseudo canonical, running.files canonical with
      | some number, _, _ => (.terminal number, canonical)
      | none, some node, _ => (.pseudo node, canonical)
      | none, none, some node => (.file node, canonical)
      | none, none, none => (.none, canonical)

def pathNode (address : Nat) : PathNode × Text :=
  running.pathNodeFrom machine address running.context.currentDirectory

def atCurrentWorkingDirectory : UInt32 := 0 - 100

def pathNodeAt (descriptor : UInt32) (address : Nat) : PathNode × Text :=
  match copyUserString running.memory address Path.capacity with
  | none => (.none, [])
  | some name =>
    if name.head? = some Path.slash ∨ descriptor = atCurrentWorkingDirectory then
      running.pathNode machine address
    else if inside : descriptor.toNat < 16 then
      let slot := running.descriptors ⟨descriptor.toNat, inside⟩
      if descriptor < 3 ∨ slot.node.directory = false then (.none, [])
      else running.pathNodeFrom machine address slot.path
    else (.none, [])

def chdir (path : UInt32) : UInt32 × Running :=
  match running.pathNode machine path.toNat with
  | (.none, _) => running.fails .noEntry
  | (node, canonical) =>
    if node.directory then (0, { running with context.currentDirectory := canonical })
    else running.fails .notDirectory

/-! ## Descriptors -/

/-- Store a descriptor; the call returns its number. -/
def install (slot : Fin 16) (descriptor : Descriptor) : UInt32 × Running :=
  (UInt32.ofNat slot.val,
    { running with descriptors := update running.descriptors slot descriptor })

def ptmxPath : Text := text ['/', 'd', 'e', 'v', '/', 'p', 't', 'm', 'x']

def ttyPath : Text := text ['/', 'd', 'e', 'v', '/', 't', 't', 'y']

/-- The end of a pseudo-terminal that a path names. -/
def ptyEnd (canonical : Text) : (PtyStatus × PtyHandle) × PtyTable :=
  let ptys := running.channels.ptys
  if canonical = ttyPath then ptys.openControllingSlave running.context.session
  else
    match Path.numberedSuffix canonical ptsStem 4 with
    | some number => ptys.openSlave number
    | none => ptys.openMaster

/-- Open an end of a pseudo-terminal. -/
def openPty (canonical : Text) (flags : UInt32) : UInt32 × Running :=
  match running.descriptors.firstClosed 3 with
  | none => running.fails .noMemory
  | some slot =>
    let ((status, handle), ptys) := running.ptyEnd canonical
    match status with
    | .success =>
      { running with channels.ptys := ptys }.install slot
        { node := .pty handle (if canonical = ptmxPath then .master else .slave)
          flags
          path := canonical }
    | .noSpace => running.fails .noMemory
    | .locked => running.fails .accessDenied
    | .badHandle => running.fails .noEntry

/-- Cut the file with a given path to nothing. -/
def truncate (canonical : Text) : PathNode → PathNode × Running
  | .file file =>
    let file := { file with size := 0 }
    (.file file, { running with files := update running.files canonical (some file) })
  | node => (node, running)

/-- Open a file that exists. -/
def openNode (moment : Moment) (node : PathNode) (canonical : Text) (flags : UInt32) :
    UInt32 × Running :=
  if flags &&& 0x10000 ≠ 0 ∧ node.directory = false then
    running.fails .notDirectory
  else if flags &&& 0x200 ≠ 0 ∧ node matches .pseudo _ then
    running.fails .readOnlyFilesystem
  else if flags &&& 0x200 ≠ 0 ∧ node.directory then
    running.fails .isDirectory
  else if flags &&& 0x200 ≠ 0 ∧ moment.truncated = false then
    running.fails .io
  else
    let (node, running) :=
      if flags &&& 0x200 ≠ 0 then running.truncate canonical node else (node, running)
    match running.descriptors.firstClosed 3 with
    | none => running.fails .noMemory
    | some slot =>
      running.install slot
        { node := node.node
          offset := if flags &&& 0x400 ≠ 0 then node.size else 0
          flags := flags &&& (3 ||| 0x400)
          path := canonical }

def openat (moment : Moment) (descriptor path flags : UInt32) : UInt32 × Running :=
  let (node, canonical) := running.pathNodeAt machine descriptor path.toNat
  if canonical = ptmxPath ∨ canonical = ttyPath ∨
      (Path.numberedSuffix canonical ptsStem 4).isSome then
    running.openPty canonical flags
  else
    match node with
    | .none =>
      if flags &&& 0x40 = 0 then running.fails .noEntry
      else if machine.mounted canonical then running.fails .readOnlyFilesystem
      else
        match moment.created with
        | none => running.fails .io
        | some file =>
          { running with files := update running.files canonical (some file) }.openNode
            moment (.file file) canonical flags
    | node =>
      if flags &&& 0x40 ≠ 0 ∧ flags &&& 0x80 ≠ 0 then running.fails .accessDenied
      else running.openNode moment node canonical flags

/-- Close a descriptor that may be closed already. -/
def releaseSlot (slot : Fin 16) : Running :=
  { running with
    channels := running.channels.release machine (running.descriptors slot).node
    descriptors := update running.descriptors slot {} }

def close (descriptor : UInt32) : UInt32 × Running :=
  if inside : descriptor.toNat < 16 then
    let slot : Fin 16 := ⟨descriptor.toNat, inside⟩
    if 3 ≤ slot.val ∧ (running.descriptors slot).node = .none then
      running.fails .badFileDescriptor
    else (0, running.releaseSlot machine slot)
  else running.fails .badFileDescriptor

/-- What a duplicate of a descriptor is; standard descriptors are never the redirected ones. -/
def duplicateSource (slot : Fin 16) : Descriptor :=
  if slot.val = 0 then { node := .standardInput }
  else if slot.val < 3 then { node := .standardOutput }
  else running.descriptors slot

def duplicateTo (oldDescriptor newDescriptor : Nat) (flags : UInt32) : UInt32 × Running :=
  if inside : oldDescriptor < 16 ∧ newDescriptor < 16 then
    let source := running.duplicateSource ⟨oldDescriptor, inside.1⟩
    if flags ≠ 0 ∨ oldDescriptor = newDescriptor then
      running.fails .invalidArgument
    else if source.node = .none then
      running.fails .badFileDescriptor
    else
      match running.channels.retain source.node with
      | (false, channels) => { running with channels }.fails .badFileDescriptor
      | (true, channels) =>
        let target : Fin 16 := ⟨newDescriptor, inside.2⟩
        ({ running with channels }.releaseSlot machine target).install target source
  else running.fails .invalidArgument

def pipe2 (address flags : UInt32) : UInt32 × Running :=
  if flags &&& ~~~(0x800 ||| 0x80000) ≠ 0 then
    running.fails .invalidArgument
  else if ¬ UserContains address.toNat 8 ∨ address.toNat % 4 ≠ 0 then
    running.fails .badAddress
  else
    match running.descriptors.firstClosed 3 with
    | none => running.fails .noMemory
    | some reader =>
      match running.descriptors.firstClosed (reader.val + 1) with
      | none => running.fails .noMemory
      | some writer =>
        match running.channels.pipes.create with
        | ((.success, handle), pipes) =>
          let table := update running.descriptors reader
            { node := .pipe handle .read, flags }
          (0,
            { running with
              channels.pipes := pipes
              descriptors := update table writer
                { node := .pipe handle .write, flags }
              memory := put32 (put32 running.memory address.toNat reader.val)
                (address.toNat + 4) writer.val })
        | (_, pipes) => { running with channels.pipes := pipes }.fails .noMemory

def descriptorOpen (descriptor : UInt32) : Bool :=
  if inside : descriptor.toNat < 16 then
    descriptor.toNat < 3 || (running.descriptors ⟨descriptor.toNat, inside⟩).node ≠ .none
  else false

def fcntl (descriptor command argument : UInt32) : UInt32 × Running :=
  if command = 1 ∨ command = 2 then
    if running.descriptorOpen descriptor then (0, running) else running.fails .badFileDescriptor
  else if command = 3 then
    if inside : descriptor.toNat < 16 then
      if descriptor.toNat < 3 then (if descriptor = 0 then 0 else 1, running)
      else if running.descriptorOpen descriptor then
        ((running.descriptors ⟨descriptor.toNat, inside⟩).flags, running)
      else running.fails .badFileDescriptor
    else running.fails .badFileDescriptor
  else if command = 4 then
    if inside : descriptor.toNat < 16 then
      if descriptor.toNat < 3 then (0, running)
      else if running.descriptorOpen descriptor then
        let slot : Fin 16 := ⟨descriptor.toNat, inside⟩
        (0,
          { running with
            descriptors := update running.descriptors slot
              { running.descriptors slot with flags := argument } })
      else running.fails .badFileDescriptor
    else running.fails .badFileDescriptor
  else if command ≠ 0 ∧ command ≠ 1030 then
    running.fails .invalidArgument
  else if running.descriptorOpen descriptor = false then
    running.fails .badFileDescriptor
  else
    match running.descriptors.firstClosed argument.toNat with
    | none => running.fails .noMemory
    | some target => running.duplicateTo machine descriptor.toNat target.val 0

def lseek (descriptor offset : UInt32) : UInt32 × Running :=
  if inside : descriptor.toNat < 16 then
    let slot : Fin 16 := ⟨descriptor.toNat, inside⟩
    if slot.val < 3 ∨ (running.descriptors slot).node = .none then
      running.fails .badFileDescriptor
    else
      (offset,
        { running with
          descriptors := update running.descriptors slot
            { running.descriptors slot with offset := offset.toNat } })
  else running.fails .badFileDescriptor

/-! ## Sockets -/

def socketError : SocketResult → UInt32
  | .success | .endOfFile => 0
  | .badHandle => error .badFileDescriptor
  | .wrongType => error .operationNotSupported
  | .invalidArgument | .notBound | .notListening => error .invalidArgument
  | .addressInUse => error .addressInUse
  | .wouldBlock => error .tryAgain
  | .notConnected => error .notConnected
  | .noSpace => error .noMemory
  | .reset => error .io
  | .timedOut => error .timedOut

def sockNonblock : UInt32 := 0x800

def sockCloexec : UInt32 := 0x80000

def socket (domain type protocol : UInt32) : UInt32 × Running :=
  let baseType := type &&& ~~~(sockNonblock ||| sockCloexec)
  if domain ≠ 2 then
    running.fails .addressFamilyNotSupported
  else if baseType ≠ 1 ∧ baseType ≠ 2 then
    running.fails .operationNotSupported
  else if protocol ≠ 0 ∧ ¬ (baseType = 1 ∧ protocol = 6) then
    running.fails .protocolNotSupported
  else
    let (opened, network) :=
      running.channels.network.socketOpen (if baseType = 1 then .stream else .datagram)
    let running := { running with channels.network := network }
    if opened.result ≠ .success then
      running.fails .noMemory
    else
      match running.descriptors.firstClosed 3 with
      | none =>
        { running with
          channels := running.channels.release machine (.networkSocket opened.handle) }.fails
            .noMemory
      | some slot =>
        running.install slot
          { node := .networkSocket opened.handle, flags := type &&& sockNonblock }

def readSockaddr (address size : UInt32) : Option Endpoint :=
  let data : Bytes := fun position => running.memory (address.toNat + position)
  if size < 16 ∨ ¬ UserContains address.toNat 16 ∨ littleU16 data 0 ≠ 2 then none
  else
    some
      { address := { octet := #v[data 4, data 5, data 6, data 7] }
        port := UInt16.ofNat ((data 2).toNat * 0x100 + (data 3).toNat) }

def writeSockaddr (endpoint : Endpoint) (address lengthAddress : UInt32) : Except Errno Running :=
  if address = 0 then .ok running
  else if lengthAddress = 0 ∨ ¬ UserContains lengthAddress.toNat 4 ∨
      ¬ UserContains address.toNat 16 then
    .error .badAddress
  else if littleU32 running.memory lengthAddress.toNat < 16 then
    .error .invalidArgument
  else
    let octets := endpoint.address.octet.toList
    let value : List UInt8 :=
      [2, 0, UInt8.ofNat (endpoint.port.toNat / 0x100), UInt8.ofNat endpoint.port.toNat] ++ octets
    .ok
      { running with
        memory :=
          put32 (splice running.memory address.toNat 16 fun position => value.getD position 0)
            lengthAddress.toNat 16 }

def bind (descriptor address size : UInt32) : UInt32 × Running :=
  match running.descriptors.socket descriptor.toNat with
  | none => running.fails .badFileDescriptor
  | some (_, handle) =>
    match running.readSockaddr address size with
    | none => running.fails .invalidArgument
    | some endpoint =>
      let (result, network) := running.channels.network.socketBind handle endpoint
      (socketError result, { running with channels.network := network })

def listen (descriptor backlog : UInt32) : UInt32 × Running :=
  match running.descriptors.socket descriptor.toNat with
  | none => running.fails .badFileDescriptor
  | some (_, handle) =>
    let (result, network) := running.channels.network.socketListen handle backlog
    (socketError result, { running with channels.network := network })

def shutdownSocket (descriptor how : UInt32) : UInt32 × Running :=
  match running.descriptors.socket descriptor.toNat with
  | none => running.fails .badFileDescriptor
  | some (_, handle) =>
    let (result, channels) := running.channels.atNow machine fun now stack =>
      stack.socketShutdown machine.driver now handle how
    (socketError result, { running with channels })

def userBytes (address size : Nat) : List UInt8 :=
  (List.range size).map fun position => running.memory (address + position)

/-- The position in a file moves with a transfer. -/
def transferred (slot : Fin 16) (result : UInt32) : UInt32 × Running :=
  let descriptor := running.descriptors slot
  (result,
    { running with
      descriptors := update running.descriptors slot
        { descriptor with offset := wrap 32 (descriptor.offset + result.toNat) } })

/-- `write`.  Transfers other than to a socket are left to the moment. -/
def write (moment : Moment) (descriptor address size : UInt32) : UInt32 × Running :=
  match running.descriptors.slot descriptor.toNat with
  | none => (moment.arrived.getD 0, running)
  | some slot =>
    match (running.descriptors slot).node with
    | .networkSocket handle =>
      if ¬ UserContains address.toNat size.toNat then running.fails .badAddress
      else if size = 0 then (0, running)
      else
        let (written, channels) := running.channels.atNow machine fun now stack =>
          stack.socketWrite machine.driver now handle
            (running.userBytes address.toNat size.toNat)
        (if written.result = .success then UInt32.ofNat written.size
          else socketError written.result,
          { running with channels })
    | .filesystem _ _ => running.transferred slot (moment.arrived.getD 0)
    | _ => (moment.arrived.getD 0, running)

end Running

namespace Kernel
variable (machine : Machine) (kernel : Kernel)

/-! ## Programs -/

/-- Memory between the program and its mapped pages. -/
def heapReserve : Nat := 512 * 1024

/-- `replace_with_executable`.  A refused file may have changed the memory and the end of the
program all the same. -/
def replaceWithExecutable (path : Text) (arguments environment : List Text) : Bool × Kernel :=
  match kernel.files path with
  | none => (false, kernel)
  | some node =>
    if node.type ≠ .regular ∨ node.mode &&& 0o111 = 0 then (false, kernel)
    else
      let busybox := sameFile kernel.files busyboxPath node
      match loadExecutable machine kernel.files node busybox kernel.memory with
      | (none, memory) => (false, { kernel with memory })
      | (some image, memory) =>
        let context := { kernel.context with brk := image.brk, mutableBegin := image.mutableBegin }
        if busybox = false ∧ userStackTop - heapReserve < image.brk then
          (false, { kernel with memory, context })
        else
          let mmapBegin :=
            if busybox then 0x81800000 else alignUp (image.brk + heapReserve) 4096
          let (stack, memory) := makeInitialStack image arguments environment memory
          (true,
            { kernel with
              memory
              context :=
                { context with
                  mmapBegin
                  mmapCursor := mmapBegin
                  frame := context.frame.start image.entry stack
                  image := if busybox then .busybox else .other
                  executablePath := path.take (Path.capacity - 1) }
              imageReplaced := true })

def maxArguments : Nat := 16

def maxArgumentSize : Nat := 128

/-- The texts of a table of addresses that a zero ends, at most `maxArguments` of them. -/
def readTexts (memory : Bytes) : (address fuel : Nat) → Except Errno (List Text)
  | _, 0 => .ok []
  | address, fuel + 1 =>
    if ¬ UserContains address 4 then .error .badAddress
    else if littleU32 memory address = 0 then .ok []
    else
      match copyUserString memory (littleU32 memory address) maxArgumentSize with
      | none => .error .badAddress
      | some first => (readTexts memory (address + 4) fuel).map (first :: ·)

def selfPath : Text :=
  text ['/', 'p', 'r', 'o', 'c', '/', 's', 'e', 'l', 'f', '/', 'e', 'x', 'e']

/-- The file that `execve` names, with its canonical path. -/
def executableNode (path : UInt32) : Running.PathNode × Text :=
  let (node, canonical) := kernel.toRunning.pathNode machine path.toNat
  if canonical = selfPath then
    let own := kernel.context.executablePath
    ((kernel.files own).elim .none .file, own)
  else (node, canonical)

def execve (path argv envp : UInt32) : Outcome :=
  let (node, canonical) := kernel.executableNode machine path
  if argv.toNat % 4 ≠ 0 ∨ envp.toNat % 4 ≠ 0 then
    kernel.fails .invalidArgument
  else
    match node with
    | .file file =>
      if file.type ≠ .regular then
        kernel.fails .noEntry
      else if file.mode &&& 0o111 = 0 then
        kernel.fails .accessDenied
      else if machine.interactive ∧ kernel.suspended.background.used ∧
          canonical = kernel.suspended.background.executablePath then
        kernel.fails .textFileBusy
      else
        match readTexts kernel.memory argv.toNat maxArguments with
        | .error value => kernel.fails value
        | .ok arguments =>
          if arguments.length = 0 ∨ arguments.length = maxArguments then
            kernel.fails .noMemory
          else
            match if kernel.suspended.parent.active then kernel.saveParentMemory
                else (true, kernel) with
            | (false, kernel) => kernel.fails .noMemory
            | (true, kernel) =>
              match if envp = 0 then .ok []
                  else readTexts kernel.memory envp.toNat maxArguments with
              | .error value => kernel.fails value
              | .ok environment =>
                if environment.length = maxArguments then
                  kernel.fails .noMemory
                else
                  match kernel.replaceWithExecutable machine canonical arguments
                      environment with
                  | (true, kernel) => { result := 0, kernel }
                  | (false, kernel) => kernel.fails .execFormat
    | _ => kernel.fails .noEntry

def stressPath : Text :=
  text ['/', 'b', 'i', 'n', '/', 's', 't', 'r', 'e', 's', 's', '-', 'n', 'g']

def stressArguments : List Text :=
  [text ['s', 't', 'r', 'e', 's', 's', '-', 'n', 'g'], text ['-', '-', 'c', 'p', 'u'], text ['1'],
    text ['-', '-', 'c', 'p', 'u', '-', 'm', 'e', 't', 'h', 'o', 'd'], text ['l', 'o', 'o', 'p'],
    text ['-', '-', 'c', 'p', 'u', '-', 'o', 'p', 's'], text ['4'],
    text ['-', '-', 'v', 'e', 'r', 'i', 'f', 'y'],
    text ['-', '-', 'm', 'e', 't', 'r', 'i', 'c', 's', '-', 'b', 'r', 'i', 'e', 'f']]

/-- `exit` and `exit_group`.  Without a parent the machine stops, or the shell is followed by
the stress program. -/
def exit (status : UInt32) : Halting Outcome :=
  if kernel.suspended.parent.active then
    kernel.exitToParent machine status
  else if kernel.context.image = .busybox then
    if status ≠ 0 then .error status.toNat
    else if machine.tribe then .error 0
    else
      match kernel.replaceWithExecutable machine stressPath stressArguments [] with
      | (true, kernel) => .ok { switch := .startsStress, result := 0, kernel }
      | (false, _) => .error 6
  else .error status.toNat

/-! ## Children -/

/-- The first child that has exited and meets a condition. -/
def findChild (children : WaitableChildren) (condition : WaitableChild → Bool) :
    Option (Fin processContextCapacity) :=
  (List.finRange processContextCapacity).find? fun index =>
    (children index).used && condition (children index)

/-- `waitable_for_wait4`. -/
def waitSelects (selector : UInt32) (child : WaitableChild) : Bool :=
  child.parentPid = kernel.context.pid &&
    (selector = 0xffffffff ||
      (0 < selector && selector < 0x80000000 && child.pid = selector.toNat) ||
      (selector = 0 && child.processGroup = kernel.context.processGroup) ||
      (0x80000000 ≤ selector && selector ≠ 0xffffffff && child.processGroup = (0 - selector).toNat))

/-- Free the entry of a child and bring the parent's hint up to date. -/
def reap (index : Fin processContextCapacity) : Kernel :=
  let children := update kernel.children index {}
  { kernel with
    children
    suspended.parent.childWaitable :=
      (List.finRange processContextCapacity).any fun index => (children index).used }

def wait4 (selector status : UInt32) : Outcome :=
  match findChild kernel.children (kernel.waitSelects selector) with
  | none => kernel.fails .noChild
  | some index =>
    let child := kernel.children index
    if status ≠ 0 ∧ ¬ UserContains status.toNat 4 then
      kernel.fails .badAddress
    else
      let memory :=
        if status = 0 then kernel.memory
        else put32 kernel.memory status.toNat (child.status <<< 8).toNat
      { result := UInt32.ofNat child.pid, kernel := { kernel with memory }.reap index }

def waitidSelects (which pid : UInt32) (child : WaitableChild) : Bool :=
  child.parentPid = kernel.context.pid &&
    (which = 0 || (which = 1 && child.pid = pid.toNat) ||
      (which = 2 &&
        child.processGroup = if pid = 0 then kernel.context.processGroup else pid.toNat))

/-- The report on a child in user memory. -/
def childSiginfo (child : WaitableChild) : Bytes :=
  put32 (put32 (put32 (put32 zeroBytes 0 17) 8 1) 12 child.pid) 20 child.status.toNat

def waitid (which pid address options : UInt32) : Outcome :=
  if which ≠ 0 ∧ which ≠ 1 ∧ which ≠ 2 then
    kernel.fails .invalidArgument
  else
    match findChild kernel.children (kernel.waitidSelects which pid) with
    | none =>
      if options &&& 1 ≠ 0 ∧ UserContains address.toNat 128 then
        { result := 0
          kernel := { kernel with memory := splice kernel.memory address.toNat 128 zeroBytes } }
      else kernel.fails .noChild
    | some index =>
      if ¬ UserContains address.toNat 128 then
        kernel.fails .badAddress
      else
        let reported :=
          { kernel with
            memory := splice kernel.memory address.toNat 128
              (childSiginfo (kernel.children index)) }
        { result := 0
          kernel := if options &&& 0x01000000 = 0 then reported.reap index else reported }

/-- The entry of a child of the running process. -/
def ownChild (pid : UInt32) (child : WaitableChild) : Bool :=
  child.parentPid = kernel.context.pid && child.pid = pid.toNat

def setpgid (pid group : UInt32) : Outcome :=
  match findChild kernel.children (kernel.ownChild pid) with
  | some index =>
    let processGroup := if group = 0 then pid.toNat else group.toNat
    let parent := kernel.suspended.parent
    { result := 0
      kernel :=
        { kernel with
          children := update kernel.children index
            { kernel.children index with processGroup }
          suspended.parent.childProcessGroup :=
            if pid.toNat = parent.childPid then processGroup else parent.childProcessGroup } }
  | none =>
    let context := kernel.context
    let parent := kernel.suspended.parent
    let selected := if group = 0 then context.pid else group.toNat
    if pid ≠ 0 ∧ pid.toNat ≠ context.pid then
      kernel.fails .noEntry
    else if context.session = context.pid then
      kernel.fails .accessDenied
    else if selected ≠ context.pid ∧ selected ≠ context.processGroup ∧
        ¬ (parent.active ∧ selected = parent.processGroup ∧ context.session = parent.session) then
      kernel.fails .accessDenied
    else
      { result := 0, kernel := { kernel with context.processGroup := selected } }

def sendSignal (pid signal : UInt32) : Outcome :=
  let parent := kernel.suspended.parent
  let toParent := parent.active && pid.toNat = parent.pid
  if signalMax < signal.toNat then
    kernel.fails .invalidArgument
  else if pid ≠ 0 ∧ pid.toNat ≠ kernel.context.pid ∧ pid ≠ 0xffffffff ∧ toParent = false then
    kernel.fails .noEntry
  else if signal = 0 then
    { result := 0, kernel }
  else if toParent then
    { result := 0
      kernel := { kernel with suspended.parent.signals := parent.signals.queue signal.toNat } }
  else
    { result := 0
      kernel := { kernel with context.signals := kernel.context.signals.queue signal.toNat } }

/-! ## Calls that wait -/

def goesOn : Outcome := { switch := .waits, result := 0, kernel }

/-- A call that gave the processor to another process returns that process's result. -/
def switched (switch : Switch) : Outcome :=
  { switch, result := kernel.context.frame.argument 0, kernel }

/-- Park on a socket, or go on in another way. -/
def parkOr (socket : SocketHandle) (moment : Moment) (next : Kernel → Halting Outcome) :
    Halting Outcome := do
  match ← kernel.parkBackground machine socket moment.uartReady with
  | (true, kernel) => .ok (kernel.switched .parksBackground)
  | (false, kernel) => next kernel

/-- Park on a pseudo-terminal, or go on in another way. -/
def parkInteractiveOr (handle : PtyHandle) (which : PtyEnd) (next : Kernel → Halting Outcome) :
    Halting Outcome := do
  match ← kernel.parkInteractiveChild machine handle which with
  | (true, kernel) => .ok (kernel.switched .parksInteractive)
  | (false, kernel) => next kernel

/-- Resume the process parked on a pseudo-terminal, or go on in another way. -/
def resumeInteractiveOr (next : Kernel → Halting Outcome) : Halting Outcome := do
  match ← kernel.resumeInteractiveChildIfReady machine with
  | (true, kernel) => .ok (kernel.switched .resumesInteractive)
  | (false, kernel) => next kernel

/-- Resume a parked process, or go on in another way. -/
def resumeOr (next : Kernel → Halting Outcome) : Halting Outcome :=
  kernel.resumeInteractiveOr machine fun kernel => do
    match ← kernel.resumeBackgroundIfReady machine with
    | (true, kernel) => .ok (kernel.switched .resumesBackground)
    | (false, kernel) => next kernel

def waitFor (descriptor : Nat) (moment : Moment) : Halting Outcome :=
  match (kernel.descriptors.slot descriptor).map fun slot => (kernel.descriptors slot).node with
  | some (.networkSocket handle) =>
    kernel.parkOr machine handle moment fun kernel => .ok kernel.goesOn
  | some (.pty handle which) =>
    kernel.parkInteractiveOr machine handle which fun kernel => .ok kernel.goesOn
  | _ => .ok kernel.goesOn

/-- What is wrong with the time limit of a poll. -/
def timeoutError (address : UInt32) (time64 : Bool) : Option Errno :=
  if address = 0 then none
  else if ¬ UserContains address.toNat (if time64 then 16 else 8) then some .badAddress
  else if time64 = false ∧ (2 ^ 31 ≤ littleU32 kernel.memory address.toNat ∨
      2 ^ 31 ≤ littleU32 kernel.memory (address.toNat + 4)) then
    some .invalidArgument
  else none

/-- A turn of a poll: parked processes come first, then what has arrived; then the call waits
for one of its descriptors. -/
def poll (moment : Moment) (requested : Bool) : Halting Outcome :=
  kernel.resumeOr machine fun kernel =>
    match moment.arrived with
    | some result => .ok { result, kernel }
    | none =>
      if requested then kernel.waitFor machine moment.watched moment else .ok kernel.goesOn

def ppoll (moment : Moment) (address count timeout : UInt32) (time64 : Bool) : Halting Outcome :=
  if machine.interactive = false then
    .ok (kernel.fails .noSyscall)
  else if 16 < count.toNat ∨ ¬ UserContains address.toNat (count.toNat * 8) then
    .ok (kernel.fails .badAddress)
  else
    match kernel.timeoutError timeout time64 with
    | some value => .ok (kernel.fails value)
    | none =>
      kernel.poll machine moment <| (List.range count.toNat).any fun entry =>
        littleU32 kernel.memory (address.toNat + entry * 8) = moment.watched &&
          littleU16 kernel.memory (address.toNat + entry * 8 + 4) % 2 = 1

def pselect6 (moment : Moment) (count readSet writeSet errorSet timeout : UInt32) (time64 : Bool) :
    Halting Outcome :=
  if machine.interactive = false then
    .ok (kernel.fails .noSyscall)
  else if 16 < count.toNat then
    .ok (kernel.fails .invalidArgument)
  else if [readSet, writeSet, errorSet].any fun set => set ≠ 0 ∧ ¬ UserContains set.toNat 4 then
    .ok (kernel.fails .badAddress)
  else
    match kernel.timeoutError timeout time64 with
    | some value => .ok (kernel.fails value)
    | none =>
      kernel.poll machine moment <| moment.watched < count.toNat && readSet ≠ 0 &&
        (littleU32 kernel.memory readSet.toNat).testBit moment.watched

def readSocket (slot : Fin 16) (handle : SocketHandle) (moment : Moment) (address size : UInt32) :
    Halting Outcome :=
  if size = 0 then .ok { result := 0, kernel }
  else
    let turn (kernel : Kernel) : Halting Outcome :=
      let ((read, bytes), channels) := kernel.channels.atNow machine fun now stack =>
        stack.socketRead now handle size.toNat
      let kernel := { kernel with channels }
      match read.result with
      | .success =>
        .ok
          { result := UInt32.ofNat read.size
            kernel :=
              { kernel with
                memory := splice kernel.memory address.toNat (min read.size size.toNat)
                  fun position => bytes.getD position 0 } }
      | .wouldBlock =>
        if (kernel.descriptors slot).flags &&& Running.sockNonblock ≠ 0 then
          .ok (kernel.fails .tryAgain)
        else kernel.parkOr machine handle moment fun kernel => .ok kernel.goesOn
      | result => .ok { result := Running.socketError result, kernel }
    -- between two turns a process parked on a terminal may be resumed
    if moment.waited then kernel.resumeInteractiveOr machine turn else turn kernel

/-- `read_virtual`.  What arrives at a pipe or a pseudo-terminal, and from a file, is left to
the moment. -/
def readVirtual (slot : Fin 16) (moment : Moment) (address size : UInt32) : Halting Outcome :=
  let descriptor := kernel.descriptors slot
  if descriptor.node.directory then .ok (kernel.fails .isDirectory)
  else if ¬ UserContains address.toNat size.toNat then .ok (kernel.fails .badAddress)
  else
    match descriptor.node with
    | .networkSocket handle => kernel.readSocket machine slot handle moment address size
    | .pipe _ .write => .ok (kernel.fails .badFileDescriptor)
    | .pipe _ .read => .ok { result := moment.arrived.getD (error .tryAgain), kernel }
    | .pty handle which =>
      match moment.arrived with
      | some result => .ok { result, kernel }
      | none =>
        if descriptor.flags &&& 0x800 ≠ 0 then .ok (kernel.fails .tryAgain)
        else
          kernel.parkInteractiveOr machine handle which fun kernel =>
            .ok (kernel.fails .tryAgain)
    | .filesystem _ _ | .pseudo _ =>
      let (result, running) := kernel.toRunning.transferred slot (moment.arrived.getD 0)
      .ok { result, kernel := { kernel with toRunning := running } }
    | _ => .ok { result := 0, kernel }

/-- `read`: the terminal, or a descriptor that is open. -/
def read (moment : Moment) (descriptor address size : UInt32) : Halting Outcome :=
  if descriptor = 0 ∧ kernel.descriptors.first.node = .none then
    if ¬ UserContains address.toNat size.toNat then .ok (kernel.fails .badAddress)
    else if size = 0 then .ok { result := 0, kernel }
    else
      match moment.arrived with
      | some result => .ok { result, kernel }
      | none => kernel.resumeOr machine fun kernel => .ok kernel.goesOn
  else
    match kernel.descriptors.slot descriptor.toNat with
    | none => .ok (kernel.fails .badFileDescriptor)
    | some slot => kernel.readVirtual machine slot moment address size

def storeAccepted (target : Fin 16) (accepted : AcceptResult) (address lengthAddress flags : UInt32) :
    Outcome :=
  match kernel.toRunning.writeSockaddr accepted.peer address lengthAddress with
  | .error value =>
    { kernel with
      channels := kernel.channels.release machine (.networkSocket accepted.handle) }.fails value
  | .ok running =>
    let (result, running) := running.install target
      { node := .networkSocket accepted.handle, flags := flags &&& Running.sockNonblock }
    { result, kernel := { kernel with toRunning := running } }

def accept (moment : Moment) (descriptor address lengthAddress flags : UInt32) : Halting Outcome :=
  if flags &&& ~~~(Running.sockNonblock ||| Running.sockCloexec) ≠ 0 then
    .ok (kernel.fails .invalidArgument)
  else
    match kernel.descriptors.socket descriptor.toNat with
    | none => .ok (kernel.fails .badFileDescriptor)
    | some (slot, handle) =>
      if address ≠ 0 ∧ (lengthAddress = 0 ∨ ¬ UserContains lengthAddress.toNat 4 ∨
          ¬ UserContains address.toNat 16) then
        .ok (kernel.fails .badAddress)
      else
        match kernel.descriptors.firstClosed 3 with
        | none => .ok (kernel.fails .noMemory)
        | some target =>
          let (accepted, network) := kernel.channels.network.socketAccept handle
          let kernel := { kernel with channels.network := network }
          match accepted.result with
          | .success =>
            .ok (kernel.storeAccepted machine target accepted address lengthAddress flags)
          | .wouldBlock =>
            if ((kernel.descriptors slot).flags ||| flags) &&& Running.sockNonblock ≠ 0 then
              .ok (kernel.fails .tryAgain)
            else kernel.parkOr machine handle moment fun kernel => .ok kernel.goesOn
          | result => .ok { result := Running.socketError result, kernel }

end Kernel
end Mikos.Process
