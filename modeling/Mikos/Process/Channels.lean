import Mikos.Library.References
import Mikos.Process.Basic

/-!
# Pipes and pseudo-terminals

Both are tables of objects with two ends each, which count the descriptors of every end.
-/

namespace Mikos.Process
open Library

/-- References are counted in 16 bits. -/
def maxReferences : Nat := 0xffff

/-! ## Pipes -/

inductive PipeEnd where
  | read | write
  deriving DecidableEq, Repr

instance : Fintype PipeEnd := ⟨{.read, .write}, by intro which; cases which <;> decide⟩

abbrev PipeHandle := Handle

inductive PipeStatus where
  | success | wouldBlock | endOfFile | brokenPipe | badHandle | noSpace
  deriving DecidableEq, Repr

/-- The pipes, each with what holds its bytes. -/
abbrev PipeTable (capacity : Nat) (π : Type) := ReferenceTable capacity PipeEnd π

namespace PipeTable
variable {capacity : Nat} {π : Type} [Inhabited π]

def initial : PipeTable capacity π := fun _ => { payload := default }

variable (pipes : PipeTable capacity π)

def create : (PipeStatus × PipeHandle) × PipeTable capacity π :=
  match pipes.vacant with
  | none => ((.noSpace, {}), pipes)
  | some index =>
    let (handle, pipes) := pipes.install index default fun _ => 1
    ((.success, handle), pipes)

def retain (handle : PipeHandle) (which : PipeEnd) : PipeStatus × PipeTable capacity π :=
  match pipes.find handle with
  | none => (.badHandle, pipes)
  | some index =>
    let references := (pipes index).references which
    if references = maxReferences then (.noSpace, pipes)
    else (.success, pipes.setReferences index which (references + 1))

def release (handle : PipeHandle) (which : PipeEnd) : PipeStatus × PipeTable capacity π :=
  match pipes.find handle with
  | none => (.badHandle, pipes)
  | some index =>
    if (pipes index).references which = 0 then (.badHandle, pipes)
    else (.success, pipes.drop index which default)

end PipeTable

/-! ## Pseudo-terminals -/

inductive PtyEnd where
  | master | slave
  deriving DecidableEq, Repr

instance : Fintype PtyEnd := ⟨{.master, .slave}, by intro which; cases which <;> decide⟩

abbrev PtyHandle := Handle

inductive PtyStatus where
  | success | badHandle | locked | noSpace
  deriving DecidableEq, Repr

/-- A pseudo-terminal without its ends: the bytes under way in both directions, the session
that it controls and its foreground group, and whether its slave may be opened. -/
structure Terminal where
  masterToSlave : List UInt8 := []
  slaveToMaster : List UInt8 := []
  session : Nat := 0
  foregroundGroup : Nat := 0
  locked : Bool := false
  deriving DecidableEq, Repr

abbrev PtyTable := ReferenceTable 4 PtyEnd Terminal

namespace PtyTable

def initial : PtyTable := fun _ => { payload := {} }

def openMaster (ptys : PtyTable) : (PtyStatus × PtyHandle) × PtyTable :=
  match ptys.vacant with
  | none => ((.noSpace, {}), ptys)
  | some index =>
    let (handle, ptys) := ptys.install index { locked := true } fun
      | .master => 1
      | .slave => 0
    ((.success, handle), ptys)

/-- Open the slave of the pseudo-terminal in a slot that is in use. -/
def openSlaveAt (ptys : PtyTable) (index : Fin 4) : (PtyStatus × PtyHandle) × PtyTable :=
  let references := (ptys index).references .slave
  if (ptys index).payload.locked then
    ((.locked, {}), ptys)
  else if references = maxReferences then
    ((.noSpace, {}), ptys)
  else
    ((.success, ⟨(ptys index).generation, index⟩), ptys.setReferences index .slave (references + 1))

def openSlave (ptys : PtyTable) (number : Nat) : (PtyStatus × PtyHandle) × PtyTable :=
  if inside : number < 4 then
    if (ptys ⟨number, inside⟩).used then ptys.openSlaveAt ⟨number, inside⟩
    else ((.badHandle, {}), ptys)
  else ((.badHandle, {}), ptys)

def openControllingSlave (ptys : PtyTable) (session : Nat) : (PtyStatus × PtyHandle) × PtyTable :=
  if session = 0 then
    ((.badHandle, {}), ptys)
  else
    match (List.finRange 4).find? fun index =>
        (ptys index).used && (ptys index).payload.session == session with
    | none => ((.badHandle, {}), ptys)
    | some index => ptys.openSlaveAt index

def retain (ptys : PtyTable) (handle : PtyHandle) (which : PtyEnd) : PtyStatus × PtyTable :=
  match ptys.find handle with
  | none => (.badHandle, ptys)
  | some index =>
    let references := (ptys index).references which
    if references = 0 then (.badHandle, ptys)
    else if references = maxReferences then (.noSpace, ptys)
    else (.success, ptys.setReferences index which (references + 1))

def release (ptys : PtyTable) (handle : PtyHandle) (which : PtyEnd) : PtyStatus × PtyTable :=
  match ptys.find handle with
  | none => (.badHandle, ptys)
  | some index =>
    if (ptys index).references which = 0 then (.badHandle, ptys)
    else (.success, ptys.drop index which {})

def readable (ptys : PtyTable) (handle : PtyHandle) (which : PtyEnd) : Bool :=
  match ptys.find handle with
  | none => false
  | some index =>
    let pty := ptys index
    let (ring, peer) :=
      match which with
      | .master => (pty.payload.slaveToMaster, PtyEnd.slave)
      | .slave => (pty.payload.masterToSlave, PtyEnd.master)
    pty.references which ≠ 0 && (!ring.isEmpty || pty.references peer = 0)

end PtyTable
end Mikos.Process
