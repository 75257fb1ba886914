import Mikos.Library.LittleEndian
import Mikos.Library.Words

/-!
# Processes: addresses, registers, errors and signals

What the process code of the kernel is written in: the range of user memory, the trap
frame, the results of system calls, and the signal state of a process.  Addresses and
process numbers are natural numbers below `2 ^ 32`; registers are words.
-/

namespace Mikos.Process
open Library

/-! ## Addresses -/

def userBegin : Nat := 0x81000000

def userEnd : Nat := 0x82000000

def userStackTop : Nat := 0x81fff000

/-- `user_memory.contains`. -/
def UserContains (address size : Nat) : Prop :=
  userBegin ≤ address ∧ address ≤ userEnd ∧ size ≤ userEnd - address
deriving Decidable

def UserAddress (address : Nat) : Prop := userBegin ≤ address ∧ address < userEnd
deriving Decidable

def alignDown (value alignment : Nat) : Nat := value - value % alignment

def alignUp (value alignment : Nat) : Nat :=
  alignDown (wrap 32 (value + alignment - 1)) alignment

theorem alignDown_le (value alignment : Nat) : alignDown value alignment ≤ value := Nat.sub_le ..

theorem alignDown_mod (value alignment : Nat) : alignDown value alignment % alignment = 0 := by
  rw [alignDown]
  exact Nat.sub_mod_eq_zero_of_mod_eq (Nat.mod_mod ..).symm

theorem lt_alignDown_add (value : Nat) (pos : 0 < alignment) :
    value < alignDown value alignment + alignment := by
  have small := Nat.mod_lt value pos
  have below := Nat.mod_le value alignment
  rw [alignDown]
  omega

theorem alignUp_mod (value alignment : Nat) : alignUp value alignment % alignment = 0 :=
  alignDown_mod ..

theorem le_alignUp (pos : 0 < alignment) (small : value + alignment - 1 < 2 ^ 32) :
    value ≤ alignUp value alignment := by
  have bound := lt_alignDown_add (value + alignment - 1) pos
  rw [alignUp, wrap_of_lt small]
  omega

/-- Texts are strings of bytes without a zero byte. -/
abbrev Text := List UInt8

def text (characters : List Char) : Text :=
  characters.map fun character => UInt8.ofNat character.toNat

/-! ## Registers and results -/

structure TrapFrame where
  x : Fin 32 → UInt32 := fun _ => 0
  mepc : UInt32 := 0
  mstatus : UInt32 := 0
  mcause : UInt32 := 0
  mtval : UInt32 := 0

namespace TrapFrame

def stack (frame : TrapFrame) : Nat := (frame.x 2).toNat

/-- The number of the system call. -/
def number (frame : TrapFrame) : UInt32 := frame.x 17

/-- An argument of the system call; the first one makes room for the result. -/
def argument (frame : TrapFrame) (position : Nat) : UInt32 :=
  frame.x (Fin.ofNat 32 (10 + position))

def setResult (frame : TrapFrame) (result : UInt32) : TrapFrame :=
  { frame with x := Function.update frame.x 10 result }

/-- Go on behind the instruction that trapped. -/
def advance (frame : TrapFrame) : TrapFrame := { frame with mepc := frame.mepc + 4 }

/-- The registers at a system call. -/
def calling (number : UInt32) (arguments : List UInt32) : TrapFrame :=
  { x := fun register =>
      if register = 17 then number
      else if register = 2 then 0x81ffe000
      else if register < 10 then 0
      else arguments.getD (register - 10) 0 }

/-- The registers at the start of a program. -/
def start (frame : TrapFrame) (entry stack : Nat) : TrapFrame :=
  { frame with
    x := Function.update (fun _ => 0) 2 (UInt32.ofNat stack)
    mepc := UInt32.ofNat entry }

end TrapFrame

inductive Errno where
  | noEntry | interrupted | io | execFormat | badFileDescriptor | noChild | tryAgain | noMemory
  | accessDenied | badAddress | notDirectory | isDirectory | invalidArgument | textFileBusy
  | readOnlyFilesystem | noSyscall | protocolNotSupported | operationNotSupported
  | addressFamilyNotSupported | addressInUse | notConnected | timedOut
  deriving DecidableEq, Repr

namespace Errno

def code : Errno → UInt32
  | .noEntry => 2
  | .interrupted => 4
  | .io => 5
  | .execFormat => 8
  | .badFileDescriptor => 9
  | .noChild => 10
  | .tryAgain => 11
  | .noMemory => 12
  | .accessDenied => 13
  | .badAddress => 14
  | .notDirectory => 20
  | .isDirectory => 21
  | .invalidArgument => 22
  | .textFileBusy => 26
  | .readOnlyFilesystem => 30
  | .noSyscall => 38
  | .protocolNotSupported => 93
  | .operationNotSupported => 95
  | .addressFamilyNotSupported => 97
  | .addressInUse => 98
  | .notConnected => 107
  | .timedOut => 110

end Errno

/-- The result of a failed system call. -/
def error (value : Errno) : UInt32 := 0 - value.code

/-- No number of a descriptor, size or address is the result of a failed call. -/
theorem error_large (value : Errno) : userEnd ≤ (error value).toNat := by
  cases value <;> decide

theorem error_failed (value : Errno) : 2 ^ 31 ≤ (error value).toNat :=
  Nat.le_trans (by decide) (error_large value)

/-! ## Signals -/

def signalMax : Nat := 64

def signalKill : Nat := 9

def signalChild : Nat := 17

def signalStop : Nat := 19

inductive SignalStatus where
  | success | invalidSignal | uncatchable | invalidOperation
  deriving DecidableEq, Repr

inductive SignalMaskOperation where
  | block | unblock | set
  deriving DecidableEq, Repr

structure SignalAction where
  handler : UInt32 := 0
  flags : UInt32 := 0
  mask : UInt64 := 0
  deriving DecidableEq, Repr

structure SignalState where
  actions : Fin 65 → SignalAction := fun _ => {}
  blocked : UInt64 := 0
  pending : UInt64 := 0

namespace SignalState

def Valid (signal : Nat) : Prop := signal ≠ 0 ∧ signal ≤ signalMax
deriving Decidable

def bit (signal : Nat) : UInt64 :=
  if Valid signal then 1 <<< UInt64.ofNat (signal - 1) else 0

def uncatchableMask : UInt64 := bit signalKill ||| bit signalStop

def action (state : SignalState) (signal : Nat) : SignalAction :=
  state.actions (Fin.ofNat 65 signal)

def setAction (state : SignalState) (signal : Nat) (action : SignalAction) :
    SignalStatus × SignalState :=
  if ¬ Valid signal then
    (.invalidSignal, state)
  else if signal = signalKill ∨ signal = signalStop then
    (.uncatchable, state)
  else
    let action := { action with mask := action.mask &&& ~~~uncatchableMask }
    (.success, { state with actions := Function.update state.actions (Fin.ofNat 65 signal) action })

def changeMask (state : SignalState) (operation : SignalMaskOperation) (value : UInt64) :
    SignalState :=
  let value := value &&& ~~~uncatchableMask
  let blocked :=
    match operation with
    | .block => state.blocked ||| value
    | .unblock => state.blocked &&& ~~~value
    | .set => value
  { state with blocked := blocked &&& ~~~uncatchableMask }

def queue (state : SignalState) (signal : Nat) : SignalState :=
  if Valid signal then { state with pending := state.pending ||| bit signal } else state

def hasDeliverable (state : SignalState) : Bool := state.pending &&& ~~~state.blocked ≠ 0

end SignalState

/-- The state that a signal handler interrupted. -/
structure ActiveSignalFrame where
  frame : TrapFrame := {}
  blocked : UInt64 := 0
  active : Bool := false

end Mikos.Process
