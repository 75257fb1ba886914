import Mikos.Network.Stack
import Mikos.Process.Channels
import Mikos.Process.Executable
import Mikos.Process.Path
import Mikos.Process.SnapshotArena

/-!
# Descriptors

A process has sixteen descriptors: the redirections of the three standard ones and thirteen
others.  Sockets, pipes and pseudo-terminals count the descriptors that name them, in every
table of the kernel.
-/

namespace Mikos.Process
open Library Network

structure PseudoNode where
  directory : Bool := false
  size : Nat := 0
  deriving DecidableEq, Repr

/-- What the kernel is built for and runs on: the answers of the network driver and of the
clock, the build options, the start of the memory for snapshots, the executable that the
interactive kernel carries with it, and the pseudo file system with the paths below it. -/
structure Machine where
  driver : Nat → Bool := fun _ => true
  clock : Nat → UInt64 := fun _ => 0
  tribe : Bool := false
  interactive : Bool := false
  arenaBegin : Nat := 0x80100000
  dropbearBegin : Nat := 0
  dropbearSize : Nat := 0
  pseudo : Text → Option PseudoNode := fun _ => none
  mounted : Text → Bool := fun _ => false
  arenaPlaced : 0x80010000 ≤ arenaBegin ∧ arenaBegin < userBegin := by decide
  arenaAligned : arenaBegin % arenaAlignment = 0 := by decide

/-! ## The objects behind descriptors -/

/-- Pipes, pseudo-terminals and the network, with the number of times the clock was read. -/
structure Channels where
  pipes : PipeTable 8 (List UInt8) := PipeTable.initial
  ptys : PtyTable := PtyTable.initial
  network : Stack := {}
  ticks : Nat := 0

inductive Node where
  | none
  | standardInput
  | standardOutput
  | filesystem (inode : Nat) (type : FileType)
  | pseudo (node : PseudoNode)
  | networkSocket (socket : SocketHandle)
  | pipe (handle : PipeHandle) (which : PipeEnd)
  | pty (handle : PtyHandle) (which : PtyEnd)
  deriving DecidableEq, Repr

namespace Node

def directory : Node → Bool
  | .filesystem _ type => type = .directory
  | .pseudo node => node.directory
  | _ => false

end Node

structure Descriptor where
  node : Node := .none
  offset : Nat := 0
  flags : UInt32 := 0
  path : Text := []
  deriving DecidableEq, Repr

namespace Channels
variable (machine : Machine)

/-- The clock, which is not the same at any two readings. -/
def now (channels : Channels) : UInt64 := machine.clock channels.ticks

/-- A call of the network at the time of the clock. -/
def atNow {α : Type} (channels : Channels) (call : UInt64 → Stack → α × Stack) : α × Channels :=
  let (answer, network) := call (channels.now machine) channels.network
  (answer, { channels with network, ticks := channels.ticks + 1 })

/-- `retain_descriptor`. -/
def retain (channels : Channels) : Node → Bool × Channels
  | .networkSocket socket =>
    let (result, network) := channels.network.socketRetain socket
    (result = .success, { channels with network })
  | .pipe handle which =>
    let (status, pipes) := channels.pipes.retain handle which
    (status = .success, { channels with pipes })
  | .pty handle which =>
    let (status, ptys) := channels.ptys.retain handle which
    (status = .success, { channels with ptys })
  | _ => (true, channels)

/-- `release_descriptor`. -/
def release (channels : Channels) : Node → Channels
  | .networkSocket socket =>
    (channels.atNow machine fun now stack => stack.socketClose machine.driver now socket).2
  | .pipe handle which => { channels with pipes := (channels.pipes.release handle which).2 }
  | .pty handle which => { channels with ptys := (channels.ptys.release handle which).2 }
  | _ => channels

end Channels

/-! ## Tables -/

/-- Descriptors 0 to 2 are the redirections of the standard descriptors. -/
abbrev DescriptorTable := Fin 16 → Descriptor

namespace DescriptorTable

def closed : DescriptorTable := fun _ => {}

def first (table : DescriptorTable) : Descriptor := table 0

/-- Loops over a table come to the standard descriptors last. -/
def order : List (Fin 16) := [3, 4, 5, 6, 7, 8, 9, 10, 11, 12, 13, 14, 15, 0, 1, 2]

/-- The first closed descriptor from a number on; standard ones are not given out. -/
def firstClosed (table : DescriptorTable) (start : Nat) : Option (Fin 16) :=
  (List.finRange 16).find? fun slot => 3 ≤ slot.val && start ≤ slot.val && (table slot).node = .none

/-- `descriptor_slot`: a standard descriptor that is not redirected has none. -/
def slot (table : DescriptorTable) (descriptor : Nat) : Option (Fin 16) :=
  if inside : descriptor < 16 then
    if descriptor < 3 ∧ (table ⟨descriptor, inside⟩).node = .none then none
    else some ⟨descriptor, inside⟩
  else none

def socket (table : DescriptorTable) (descriptor : Nat) : Option (Fin 16 × SocketHandle) :=
  match table.slot descriptor with
  | none => none
  | some slot =>
    match (table slot).node with
    | .networkSocket handle => some (slot, handle)
    | _ => none

def ownsPtyMaster (table : DescriptorTable) (handle : PtyHandle) : Bool :=
  order.any fun slot => (table slot).node = .pty handle .master

section Loops
variable (machine : Machine) (table : DescriptorTable)

def releaseSlots (slots : List (Fin 16)) (channels : Channels) : Channels :=
  slots.foldl (fun channels slot => channels.release machine (table slot).node) channels

/-- `reset_descriptors`: release all descriptors of a table, which is closed then. -/
def reset (channels : Channels) : Channels := table.releaseSlots machine order channels

/-- Retain the descriptors in some slots; at a refusal those that were retained, the `copied`
ones among them, are released again. -/
def retainSlots : (copied slots : List (Fin 16)) → Channels → Bool × Channels
  | _, [], channels => (true, channels)
  | copied, slot :: rest, channels =>
    match channels.retain (table slot).node with
    | (true, channels) => retainSlots (copied ++ [slot]) rest channels
    | (false, channels) => (false, table.releaseSlots machine copied channels)

/-- `save_parent_descriptors`: the table to be kept for the parent in place of the one that
was kept before. -/
def save (kept : DescriptorTable) (channels : Channels) : Bool × DescriptorTable × Channels :=
  match table.retainSlots machine [] order (kept.reset machine channels) with
  | (true, channels) => (true, table, channels)
  | (false, channels) => (false, closed, channels)

end Loops
end DescriptorTable
end Mikos.Process
