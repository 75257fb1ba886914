import Mikos.Process.Calls

/-!
# Calls on files

Several processes with descriptors of their own work on the files of one file system.  Beside
each descriptor stands what its node holds of the file's size, and the flags with which the file
was opened; both go with the descriptor wherever it is copied.
-/

namespace Mikos.Process
open Library Network Function

/-- The size of a file as a descriptor's node holds it, and the flags of the call of `openat`
that the descriptor comes from. -/
structure Opening where
  size : Nat := 0
  flags : UInt32 := 0
  deriving DecidableEq, Repr

structure FileData where
  size : Nat := 0
  bytes : Bytes := zeroBytes

/-- What the file system makes of a request.  It carries it out on the blocks that the node knows
of, which need not be those of the file any more: `rest` is what is in them.  Or it fails and may
leave anything of the file and of the size that the node holds. -/
inductive Answer where
  | done (rest : Bytes)
  | failed (left : FileData) (held : Nat)

/-- A process that holds descriptors. -/
structure Holder where
  context : Context := {}
  memory : Bytes := zeroBytes
  descriptors : DescriptorTable := .closed
  openings : Fin 16 → Opening := fun _ => {}

/-- The processes, what their descriptors share, and the files by their inodes. -/
structure World where
  holders : Nat → Option Holder := fun _ => none
  channels : Channels := {}
  data : Nat → FileData := fun _ => {}

/-- A call, with what it meets outside of the kernel: the names of the files and what an open
makes of their contents, the answer of the file system, or the outcome of a transfer from or
to something other than a file. -/
inductive FileCall where
  | openat (names : Files) (data : Nat → FileData) (moment : Moment)
      (directory path flags : UInt32)
  | fcntl (descriptor command argument : UInt32)
  | dup3 (oldDescriptor newDescriptor flags : UInt32)
  | clone (child : Nat)
  | read (answer : Answer) (other : UInt32 × Bytes) (descriptor address size : UInt32)
  | write (answer : Answer) (other : UInt32) (descriptor address size : UInt32)
  | ftruncate (answer : Answer) (descriptor size : UInt32)

namespace Holder
variable (machine : Machine) (holder : Holder)

/-- The process as its calls see it. -/
def running (channels : Channels) (files : Files) : Running where
  context := holder.context
  descriptors := holder.descriptors
  channels := channels
  memory := holder.memory
  files := files

/-- The process after a call. -/
def ofRunning (running : Running) (openings : Fin 16 → Opening) : Holder where
  context := running.context
  memory := running.memory
  descriptors := running.descriptors
  openings := openings

/-- A call that returns the number of a descriptor has set it up. -/
def opened (result : UInt32) (opening : Opening) : Fin 16 → Opening :=
  if inside : result.toNat < 16 then
    update holder.openings ⟨result.toNat, inside⟩ opening
  else holder.openings

/-- The size of the file that `openat` opens, after it has created it or cut it. -/
def openedSize (moment : Moment) (node : Running.PathNode) (flags : UInt32) : Nat :=
  if flags &&& 0x200 ≠ 0 then 0
  else
    match node with
    | .none => (moment.created.map FileNode.size).getD 0
    | node => node.size

def openat (channels : Channels) (names : Files) (moment : Moment)
    (directory path flags : UInt32) : UInt32 × Holder × Channels :=
  let before := holder.running channels names
  let node := (before.pathNodeAt machine directory path.toNat).1
  let (result, running) := before.openat machine moment directory path flags
  (result, ofRunning running (holder.opened result ⟨openedSize moment node flags, flags⟩),
    running.channels)

def duplicated (descriptor : UInt32) : Opening :=
  if inside : 3 ≤ descriptor.toNat ∧ descriptor.toNat < 16 then
    holder.openings ⟨descriptor.toNat, inside.2⟩
  else {}

def dup3 (channels : Channels) (oldDescriptor newDescriptor flags : UInt32) :
    UInt32 × Holder × Channels :=
  let (result, running) := (holder.running channels fun _ => none).duplicateTo machine
    oldDescriptor.toNat newDescriptor.toNat flags
  (result, ofRunning running (holder.opened result (holder.duplicated oldDescriptor)),
    running.channels)

def fcntl (channels : Channels) (descriptor command argument : UInt32) :
    UInt32 × Holder × Channels :=
  let (result, running) := (holder.running channels fun _ => none).fcntl machine descriptor
    command argument
  let openings :=
    if command = 0 ∨ command = 1030 then holder.opened result (holder.duplicated descriptor)
    else holder.openings
  (result, ofRunning running openings, running.channels)

/-- `node_size` of a descriptor of a file. -/
def nodeSize (slot : Fin 16) : Nat := min (holder.openings slot).size 0xffffffff

/-- Set the offset of a descriptor. -/
def seek (slot : Fin 16) (offset : Nat) : Holder :=
  { holder with
    descriptors := update holder.descriptors slot
      { holder.descriptors slot with offset } }

/-- Set the size that a descriptor's node holds. -/
def resize (slot : Fin 16) (size : Nat) : Holder :=
  { holder with
    openings := update holder.openings slot { holder.openings slot with size } }

/-- The part of `read_virtual` that concerns files. -/
def readFile (data : FileData) (answer : Answer) (slot : Fin 16) (type : FileType)
    (address size : UInt32) : UInt32 × Holder :=
  let offset := (holder.descriptors slot).offset
  let available := holder.nodeSize slot
  if available ≤ offset then (0, holder)
  else
    let count := min (available - offset) size.toNat
    match answer with
    | .failed .. => (error .io, holder)
    | .done _ =>
      if type ≠ .regular then (error .io, holder)
      else
        (UInt32.ofNat count,
          { holder with
            memory := splice holder.memory address.toNat count fun position =>
              data.bytes (offset + position) }.seek slot (wrap 32 (offset + count)))

/-- `read` and `read_virtual`. -/
def read (data : Nat → FileData) (answer : Answer) (other : UInt32 × Bytes)
    (descriptor address size : UInt32) : UInt32 × Holder :=
  match holder.descriptors.slot descriptor.toNat with
  | none =>
    if descriptor ≠ 0 then (error .badFileDescriptor, holder)
    else if ¬ UserContains address.toNat size.toNat then (error .badAddress, holder)
    else (other.1, { holder with memory := other.2 })
  | some slot =>
    if (holder.descriptors slot).node.directory then (error .isDirectory, holder)
    else if ¬ UserContains address.toNat size.toNat then (error .badAddress, holder)
    else
      match (holder.descriptors slot).node with
      | .filesystem inode type => holder.readFile (data inode) answer slot type address size
      | .none | .standardInput | .standardOutput => (0, holder)
      | _ => (other.1, { holder with memory := other.2 })

/-- The part of `write` that concerns files. -/
def writeFile (data : Nat → FileData) (answer : Answer) (slot : Fin 16) (inode : Nat)
    (type : FileType) (address size : UInt32) : UInt32 × Holder × (Nat → FileData) :=
  let descriptor := holder.descriptors slot
  let offset := if descriptor.flags &&& 0x400 ≠ 0 then holder.nodeSize slot else descriptor.offset
  let holder := holder.seek slot offset
  if type ≠ .regular ∨ 0xffffffff - offset < size.toNat then (error .io, holder, data)
  else if size = 0 then (0, holder, data)
  else
    match answer with
    | .failed left held => (error .io, holder.resize slot held, update data inode left)
    | .done rest =>
      let held := (holder.openings slot).size
      let final := offset + size.toNat
      -- a node that grows stores its own size, also if the file is longer by now
      let written : FileData :=
        { size := if held < final then final else (data inode).size
          bytes := splice rest offset size.toNat fun position =>
            holder.memory (address.toNat + position) }
      (size, (holder.resize slot (max held final)).seek slot (wrap 32 final),
        update data inode written)

def write (data : Nat → FileData) (answer : Answer) (other : UInt32)
    (descriptor address size : UInt32) : UInt32 × Holder × (Nat → FileData) :=
  if ¬ UserContains address.toNat size.toNat then (error .badAddress, holder, data)
  else
    match holder.descriptors.slot descriptor.toNat with
    | none =>
      if descriptor = 1 ∨ descriptor = 2 then (size, holder, data)
      else (error .badFileDescriptor, holder, data)
    | some slot =>
      match (holder.descriptors slot).node with
      | .standardOutput => (size, holder, data)
      | .filesystem inode type =>
        if type = .directory ∨ (holder.descriptors slot).flags &&& 3 = 0 then
          (error .badFileDescriptor, holder, data)
        else holder.writeFile data answer slot inode type address size
      | .none | .standardInput => (error .badFileDescriptor, holder, data)
      | _ => (other, holder, data)

/-- `truncate` of the file system for the node of a descriptor. -/
def truncateFile (data : Nat → FileData) (answer : Answer) (slot : Fin 16) (inode : Nat)
    (type : FileType) (size : UInt32) : UInt32 × Holder × (Nat → FileData) :=
  let held := (holder.openings slot).size
  if type ≠ .regular then (error .io, holder, data)
  else if size.toNat = held then (0, holder, data)
  else if size.toNat < held ∧ size ≠ 0 then (error .io, holder, data)
  else
    match answer with
    | .failed left held => (error .io, holder.resize slot held, update data inode left)
    | .done rest =>
      let kept : FileData :=
        { size := size.toNat
          bytes := fun position =>
            if position < held ∧ position < size.toNat then rest position else 0 }
      (0, holder.resize slot size.toNat, update data inode kept)

def ftruncate (data : Nat → FileData) (answer : Answer) (descriptor size : UInt32) :
    UInt32 × Holder × (Nat → FileData) :=
  if inside : descriptor.toNat < 16 then
    let slot : Fin 16 := ⟨descriptor.toNat, inside⟩
    match (holder.descriptors slot).node with
    | .filesystem inode type =>
      if slot.val < 3 ∨ (holder.descriptors slot).flags &&& 3 = 0 then
        (error .badFileDescriptor, holder, data)
      else holder.truncateFile data answer slot inode type size
    | _ => (error .badFileDescriptor, holder, data)
  else (error .badFileDescriptor, holder, data)

end Holder

namespace World
variable (machine : Machine) (world : World)

/-- Put a process back after a call. -/
def put (pid : Nat) (holder : Holder) : World :=
  { world with holders := update world.holders pid (some holder) }

/-- `clone`: the child gets the descriptors of its parent, unless one cannot be retained. -/
def clone (pid child : Nat) (holder : Holder) : UInt32 × World :=
  if (world.holders child).isSome then (error .noMemory, world)
  else
    match holder.descriptors.retainSlots machine [] DescriptorTable.order world.channels with
    | (true, channels) =>
      (UInt32.ofNat child,
        { world with channels }.put child
          { holder with
            context := { holder.context with pid := child, parentPid := pid } })
    | (false, channels) => (error .noMemory, { world with channels })

def perform (pid : Nat) (holder : Holder) : FileCall → UInt32 × World
  | .openat names data moment directory path flags =>
    let (result, holder, channels) :=
      holder.openat machine world.channels names moment directory path flags
    (result, { world with channels, data }.put pid holder)
  | .fcntl descriptor command argument =>
    let (result, holder, channels) :=
      holder.fcntl machine world.channels descriptor command argument
    (result, { world with channels }.put pid holder)
  | .dup3 oldDescriptor newDescriptor flags =>
    let (result, holder, channels) :=
      holder.dup3 machine world.channels oldDescriptor newDescriptor flags
    (result, { world with channels }.put pid holder)
  | .clone child => world.clone machine pid child holder
  | .read answer other descriptor address size =>
    let (result, holder) := holder.read world.data answer other descriptor address size
    (result, world.put pid holder)
  | .write answer other descriptor address size =>
    let (result, holder, data) := holder.write world.data answer other descriptor address size
    (result, { world with data }.put pid holder)
  | .ftruncate answer descriptor size =>
    let (result, holder, data) := holder.ftruncate world.data answer descriptor size
    (result, { world with data }.put pid holder)

end World
end Mikos.Process
