import Mikos.Process.Basic

/-!
# The memory arena

A part of the memory is divided into blocks, each with a header at its start.  The headers are
linked in the order of their addresses.  A block in use knows the address that was handed out;
neighbouring free blocks are merged whenever one is given back.
-/

namespace Mikos.Memory
open Library
open Process (alignDown)

/-- The machine: how wide addresses and sizes are, and how the headers are laid out. -/
inductive Target where
  | bits32 | bits64
  deriving DecidableEq, Repr

namespace Target

def usizeBits : Target → Nat
  | .bits32 => 32
  | .bits64 => 64

def sizeofBlock : Target → Nat
  | .bits32 => 12
  | .bits64 => 24

def alignofBlock : Target → Nat
  | .bits32 => 4
  | .bits64 => 8

/-- The largest address. -/
def usizeMax (target : Target) : Nat := 2 ^ target.usizeBits - 1

end Target

def alignUp (target : Target) (value alignment : Nat) : Nat :=
  alignDown (wrap target.usizeBits (value + alignment - 1)) alignment

/-- The header of a block; the null pointer is zero. -/
structure Header where
  bytes : Nat
  next : Nat
  user : Nat
  deriving DecidableEq, Repr

/-- The headers that lie in the storage, by their addresses, and the state of the arena. -/
structure Arena where
  headers : Nat → Option Header := fun _ => none
  head : Nat := 0
  used : Nat := 0
  highWater : Nat := 0
  allocations : Nat := 0

namespace Arena

def setHeader (arena : Arena) (address : Nat) (header : Option Header) : Arena :=
  { arena with headers := Function.update arena.headers address header }

def makeBlock (arena : Arena) (address bytes next : Nat) : Arena :=
  arena.setHeader address (some ⟨bytes, next, 0⟩)

/-- Bring the arena into use. -/
def start (target : Target) (arena : Arena) (storage bytes : Nat) : Bool × Arena :=
  if arena.head ≠ 0 ∨ storage = 0 ∨ bytes < target.sizeofBlock ∨
      storage % target.alignofBlock ≠ 0 ∨ target.usizeMax - storage < bytes then
    (false, arena)
  else
    (true, { arena.makeBlock storage bytes 0 with head := storage })

def deref (arena : Arena) (pointer : Nat) : Option Header :=
  if pointer = 0 then none else arena.headers pointer

/-- Where an allocation would lie in a free block, if there is room for it. -/
def fit (target : Target) (block : Nat) (header : Header) (bytes alignment : Nat) : Option Nat :=
  let start := wrap target.usizeBits (block + target.sizeofBlock)
  if target.usizeMax - (alignment - 1) < start then none
  else
    let user := alignUp target start alignment
    let padding := user - block
    if header.bytes < padding ∨ header.bytes - padding < bytes then none else some user

/-- Use a free block, and split off what is left behind it if that is enough for a block. -/
def occupy (target : Target) (arena : Arena) (block : Nat) (header : Header) (user bytes : Nat) :
    Arena :=
  let consumed := user - block + bytes
  let rounded := alignUp target consumed target.alignofBlock
  let (arena, header) :=
    if consumed ≤ target.usizeMax - (target.alignofBlock - 1) ∧ rounded ≤ header.bytes ∧
        target.sizeofBlock + target.alignofBlock ≤ header.bytes - rounded then
      (arena.makeBlock (block + rounded) (header.bytes - rounded) header.next,
        { header with next := block + rounded, bytes := rounded })
    else (arena, header)
  let used := arena.used + header.bytes
  { arena.setHeader block (some { header with user }) with
    used
    highWater := if arena.highWater < used then used else arena.highWater
    allocations := arena.allocations + 1 }

/-- The loop of `tryAllocate`, from a block on. -/
def allocateFrom (target : Target) (arena : Arena) (bytes alignment : Nat) :
    Nat → Nat → Nat × Arena
  | 0, _ => (0, arena)
  | fuel + 1, block =>
    match arena.deref block with
    | none => (0, arena)
    | some header =>
      if header.user ≠ 0 then allocateFrom target arena bytes alignment fuel header.next
      else
        match fit target block header bytes alignment with
        | none => allocateFrom target arena bytes alignment fuel header.next
        | some user => (user, arena.occupy target block header user bytes)

/-- There are never more blocks than addresses. -/
def tryAllocate (target : Target) (arena : Arena) (bytes alignment : Nat) : Nat × Arena :=
  if bytes = 0 ∨ alignment = 0 ∨ alignment &&& (alignment - 1) ≠ 0 then (0, arena)
  else arena.allocateFrom target bytes alignment (2 ^ target.usizeBits) arena.head

/-- Merge a free block with the one after it, if that is free too. -/
def absorbNext (arena : Arena) (header : Header) : Arena × Header :=
  match arena.deref header.next with
  | some next =>
    if next.user = 0 then
      (arena.setHeader header.next none,
        { header with bytes := header.bytes + next.bytes, next := next.next })
    else (arena, header)
  | none => (arena, header)

/-- Merge a free block into the one before it, if that is free too. -/
def joinPrevious (arena : Arena) (previous block : Nat) (header : Header) : Arena :=
  match arena.deref previous with
  | some before =>
    if before.user = 0 then
      (arena.setHeader block none).setHeader previous
        (some { before with bytes := before.bytes + header.bytes, next := header.next })
    else arena.setHeader block (some header)
  | none => arena.setHeader block (some header)

/-- Free a block, and merge it with its neighbours if they are free. -/
def vacate (arena : Arena) (previous block : Nat) (header : Header) : Arena :=
  let arena :=
    { arena with
      used := arena.used - header.bytes
      allocations := arena.allocations - 1 }
  let (arena, header) := arena.absorbNext { header with user := 0 }
  arena.joinPrevious previous block header

/-- The loop of `release`, from a block on. -/
def releaseFrom (arena : Arena) (pointer : Nat) : Nat → Nat → Nat → Bool × Arena
  | 0, _, _ => (false, arena)
  | fuel + 1, previous, block =>
    match arena.deref block with
    | none => (false, arena)
    | some header =>
      if header.user ≠ pointer then arena.releaseFrom pointer fuel block header.next
      else (true, arena.vacate previous block header)

def release (target : Target) (arena : Arena) (pointer : Nat) : Bool × Arena :=
  if pointer = 0 then (true, arena)
  else arena.releaseFrom pointer (2 ^ target.usizeBits) 0 arena.head

end Arena
end Mikos.Memory
