import Mikos.Drivers.SplitQueue

/-!
# The block driver

The driver and the disk work side by side: between any two stores or polls of the driver the
disk may fetch a request that was offered, or complete the oldest one that it has fetched.
-/

namespace Mikos.Drivers.Block
open Drivers

def sectorSize : Nat := 512

/-- What the descriptors point to: two fields of the driver, or a buffer of the caller. -/
inductive Place where
  | request | status
  | buffer (address : Nat)
  deriving DecidableEq, Repr

structure Request where
  type : UInt32 := 0
  reserved : UInt32 := 0
  sector : Nat := 0
  deriving DecidableEq, Repr

inductive BlockCall where
  | readSectors (sector output byteCount : Nat)
  | writeSectors (sector input byteCount : Nat)
  | flush
  deriving DecidableEq, Repr

/-! ## The driver -/

/-- The driver's memory. -/
structure Driver where
  queue : SplitQueue Place 8 := {}
  request : Request := {}
  status : UInt8 := 0
  sectors : Nat := 0
  flushSupported : Bool := false
  /-- The status register of the device. -/
  register : UInt32 := 0

/-- The stores of a call, as another party sees them one by one. -/
inductive Store where
  | request (request : Request)
  | status (status : UInt8)
  | describe (id : Nat) (place : Place) (length : Nat) (access : Access) (next : Nat)
  | entry (id : UInt16)
  | index
  | notify
  deriving DecidableEq, Repr

/-- How far a call has come. -/
inductive Phase where
  | idle
  | storing (stores : List Store)
  | polling (spin : Nat)
  | judging (id : UInt32)
  | finished (answer : Bool)
  deriving DecidableEq, Repr

namespace Driver

def sizeofRequest : Nat := 16

/-- The stores of `submit`: those of `offer` and the notification. -/
def submit : List Store := [.entry 0, .index, .notify]

def transfer (type : UInt32) (sector data byteCount : Nat) (access : Access) : List Store :=
  [.request { type, sector }, .status 0xff,
    .describe 0 .request sizeofRequest .deviceReads 1,
    .describe 1 (.buffer data) byteCount access 2,
    .describe 2 .status 1 .deviceWrites 8]

def describing : BlockCall → List Store
  | .readSectors sector output byteCount => transfer 0 sector output byteCount .deviceWrites
  | .writeSectors sector input byteCount => transfer 1 sector input byteCount .deviceReads
  | .flush =>
    [.request { type := 4 }, .status 0xff,
      .describe 0 .request sizeofRequest .deviceReads 1,
      .describe 1 .status 1 .deviceWrites 8]

/-- The checks of `transfer`. -/
def Admits (driver : Driver) (sector data byteCount : Nat) : Prop :=
  ¬ (data = 0 ∨ byteCount = 0 ∨ byteCount % sectorSize ≠ 0 ∨ driver.sectors ≤ sector ∨
    driver.sectors - sector < byteCount / sectorSize)

/-- A call does not fail before its first store. -/
def Accepts (driver : Driver) : BlockCall → Prop
  | .readSectors sector output byteCount => driver.Admits sector output byteCount
  | .writeSectors sector input byteCount => driver.Admits sector input byteCount
  | .flush => driver.flushSupported = true

instance (driver : Driver) (call : BlockCall) : Decidable (driver.Accepts call) := by
  cases call <;> (unfold Accepts; try unfold Admits) <;> infer_instance

def store (driver : Driver) : Store → Driver
  | .request request => { driver with request }
  | .status status => { driver with status }
  | .describe id place length access next =>
    { driver with queue := driver.queue.describe id place length access next }
  | .entry id => { driver with queue := driver.queue.offerEntry id }
  | .index => { driver with queue := driver.queue.offerIndex }
  | .notify => driver

/-- The number of polls before a call gives up. -/
def pollLimit : Nat := 10000000

def fail (driver : Driver) : Driver := { driver with register := driver.register ||| 128 }

end Driver

/-! ## The disk -/

/-- A request as the disk has fetched it, with the number of its entry. -/
structure Job where
  entry : Nat
  head : UInt16
  header : Request
  chain : List (Descriptor Place)
  deriving DecidableEq, Repr

namespace Job

/-- The first buffer of the caller that may be used so. -/
def buffer (job : Job) (writable : Bool) : Option (Nat × Nat) :=
  job.chain.findSome? fun descriptor =>
    match descriptor.address with
    | some (.buffer address) =>
      if descriptor.writable = writable then some (address, descriptor.length) else none
    | _ => none

def hasStatus (job : Job) : Bool :=
  job.chain.any fun descriptor => descriptor.address = some .status ∧ descriptor.writable

end Job

/-- A job that was completed, and the status it was completed with. -/
structure Completion where
  job : Job
  status : UInt8
  deriving DecidableEq, Repr

/-- The bytes of the buffers, of the disk and of what survives a loss of power. -/
structure Contents where
  memory : Nat → UInt8 := fun _ => 0
  disk : Nat → UInt8 := fun _ => 0
  durable : Nat → UInt8 := fun _ => 0

def copyBytes (source target : Nat → UInt8) (origin place length : Nat) : Nat → UInt8 :=
  fun address =>
    if place ≤ address ∧ address < place + length then source (origin + (address - place))
    else target address

namespace Contents

def perform (contents : Contents) (job : Job) : Contents :=
  if job.header.type = 0 then
    match job.buffer true with
    | some (address, length) =>
      { contents with
        memory := copyBytes contents.disk contents.memory (job.header.sector * sectorSize)
          address length }
    | none => contents
  else if job.header.type = 1 then
    match job.buffer false with
    | some (address, length) =>
      { contents with
        disk := copyBytes contents.memory contents.disk address
          (job.header.sector * sectorSize) length }
    | none => contents
  else if job.header.type = 4 then { contents with durable := contents.disk }
  else contents

end Contents

/-! ## Both together -/

/-- The driver and the disk, with the number of the entries offered and the last call that was
accepted with the number of its entry. -/
structure System where
  driver : Driver := {}
  phase : Phase := .idle
  offers : Nat := 0
  current : Option (BlockCall × Nat) := none
  seenAvailable : UInt16 := 0
  fetched : Nat := 0
  pending : List Job := []
  log : List Completion := []
  contents : Contents := {}

/-- What may happen next: a call, the next store or poll of the call that runs, something that
the disk does, or a change to the buffers between two calls. -/
inductive Action where
  | call (call : BlockCall)
  | advance
  | fetch
  | complete
  /-- A request that fails may leave anything behind. -/
  | fail (status : UInt8) (contents : Contents)
  | prepare (memory : Nat → UInt8)

namespace System

/-- No call is running. -/
def Rests (system : System) : Prop :=
  match system.phase with
  | .idle | .finished _ => True
  | _ => False

instance (system : System) : Decidable system.Rests := by
  unfold Rests
  split <;> infer_instance

def start (system : System) (call : BlockCall) : System :=
  if system.driver.Accepts call then
    { system with
      phase := .storing (Driver.describing call ++ Driver.submit)
      current := some (call, system.offers) }
  else { system with phase := .finished false }

def poll (system : System) (spin : Nat) : System :=
  match system.driver.queue.completion with
  | some element =>
    { system with
      driver := { system.driver with queue := system.driver.queue.take }
      phase := .judging element.id }
  | none =>
    if spin + 1 < Driver.pollLimit then { system with phase := .polling (spin + 1) }
    else { system with driver := system.driver.fail, phase := .finished false }

/-- The next store or poll of the call that runs. -/
def advance (system : System) : Option System :=
  match system.phase with
  | .idle | .finished _ => none
  | .storing [] => some { system with phase := .polling 0 }
  | .storing (store :: rest) =>
    some
      { system with
        driver := system.driver.store store
        offers := if store = .index then system.offers + 1 else system.offers
        phase := .storing rest }
  | .polling spin => some (system.poll spin)
  | .judging id =>
    some { system with phase := .finished (id == 0 && system.driver.status == 0) }

/-- The disk fetches the next request, as it is described then. -/
def fetch (system : System) : Option System :=
  match system.driver.queue.nextAvailable system.seenAvailable with
  | some head =>
    let chain := system.driver.queue.chain 8 head.toNat
    let header :=
      if chain.head?.bind Descriptor.address = some .request then system.driver.request else {}
    some
      { system with
        seenAvailable := system.seenAvailable + 1
        fetched := system.fetched + 1
        pending := system.pending ++ [⟨system.fetched, head, header, chain⟩] }
  | none => none

/-- The disk completes the oldest request: it stores the status and returns the chain. -/
def respond (system : System) (status : UInt8) (contents : Job → Contents) : Option System :=
  match system.pending with
  | job :: rest =>
    some
      { system with
        driver :=
          { system.driver with
            status := if job.hasStatus then status else system.driver.status
            queue := system.driver.queue.publish ⟨job.head.toUInt32, 1⟩ }
        pending := rest
        log := ⟨job, status⟩ :: system.log
        contents := contents job }
  | [] => none

def act (system : System) : Action → Option System
  | .call call => if system.Rests then some (system.start call) else none
  | .advance => system.advance
  | .fetch => system.fetch
  | .complete => system.respond 0 system.contents.perform
  | .fail status contents => if status = 0 then none else system.respond status fun _ => contents
  | .prepare memory =>
    if system.Rests then
      some { system with phase := .idle, contents := { system.contents with memory } }
    else none

/-- The disk has completed whatever was offered. -/
def Settled (system : System) : Prop := system.log.length = system.offers

/-- The device after it was brought into use. -/
def initial (sectors : Nat) (flushSupported : Bool) (contents : Contents) : System where
  driver := { sectors, flushSupported }
  contents := contents

end System
end Mikos.Drivers.Block
