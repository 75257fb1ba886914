import Mikos.Library.SharedRing

/-!
# Queues shared with a device

A driver describes buffers, offers them to a device in the available ring and takes them back
from the used ring.  The queue lies in memory that both parties read and write.
-/

namespace Mikos.Drivers
open Library Function

/-- Whether the device reads a buffer or writes it. -/
inductive Access where
  | deviceReads | deviceWrites
  deriving DecidableEq, Repr

def Access.flag : Access → UInt16
  | .deviceReads => 0
  | .deviceWrites => 2

/-- A buffer, and whether another one follows it in its chain. -/
structure Descriptor (α : Type) where
  address : Option α := none
  length : Nat := 0
  flags : UInt16 := 0
  next : UInt16 := 0
  deriving DecidableEq, Repr

namespace Descriptor
variable {α : Type}

def chained (descriptor : Descriptor α) : Bool := descriptor.flags &&& 1 ≠ 0

def writable (descriptor : Descriptor α) : Bool := descriptor.flags &&& 2 ≠ 0

end Descriptor

structure UsedElement where
  id : UInt32 := 0
  length : UInt32 := 0
  deriving DecidableEq, Repr

/-- The rings with their free-running counters; the last one is the driver's own. -/
structure SplitQueue (α : Type) (size : Nat) where
  descriptors : Nat → Descriptor α := fun _ => {}
  availableRing : Nat → UInt16 := fun _ => 0
  availableIndex : UInt16 := 0
  usedRing : Nat → UsedElement := fun _ => {}
  usedIndex : UInt16 := 0
  seenUsed : UInt16 := 0

namespace SplitQueue
variable {α : Type} {size : Nat}

/-- What `describe` stores; a next buffer beyond the queue means none. -/
def descriptor (size : Nat) (address : α) (length : Nat) (access : Access) (next : Nat) :
    Descriptor α where
  address := some address
  length := length
  flags := access.flag ||| if next < size then 1 else 0
  next := if next < size then UInt16.ofNat next else 0

@[simp]
theorem descriptor_address :
    (descriptor size address length access next).address = some address := rfl

@[simp]
theorem descriptor_length : (descriptor size address length access next).length = length := rfl

@[simp]
theorem descriptor_next : (descriptor size address length access next).next =
      if next < size then UInt16.ofNat next else 0 := rfl

@[simp]
theorem descriptor_chained :
    (descriptor size address length access next).chained = decide (next < size) := by
  by_cases chained : next < size <;> cases access <;>
    simp [descriptor, Descriptor.chained, Access.flag, chained] <;> decide

@[simp]
theorem descriptor_writable :
    (descriptor size address length access next).writable = decide (access = .deviceWrites) := by
  by_cases chained : next < size <;> cases access <;>
    simp [descriptor, Descriptor.writable, Access.flag, chained] <;> decide

variable (queue : SplitQueue α size)

def describe (id : Nat) (address : α) (length : Nat) (access : Access) (next : Nat) :
    SplitQueue α size :=
  { queue with
    descriptors := update queue.descriptors id (descriptor size address length access next) }

/-- The first half of `offer`: the entry is written. -/
def offerEntry (id : UInt16) : SplitQueue α size :=
  { queue with
    availableRing := update queue.availableRing (queue.availableIndex.toNat % size) id }

/-- The second half of `offer`: the entry is counted. -/
def offerIndex : SplitQueue α size :=
  { queue with availableIndex := queue.availableIndex + 1 }

def offer (id : UInt16) : SplitQueue α size :=
  (queue.offerEntry id).offerIndex

/-- What `take` returns. -/
def completion : Option UsedElement :=
  if queue.seenUsed = queue.usedIndex then none
  else some (queue.usedRing (queue.seenUsed.toNat % size))

def take : SplitQueue α size :=
  if queue.seenUsed = queue.usedIndex then queue
  else { queue with seenUsed := queue.seenUsed + 1 }

/-! ## The device's side -/

/-- The entry a device finds next, when it has seen some. -/
def nextAvailable (seen : UInt16) : Option UInt16 :=
  if seen = queue.availableIndex then none
  else some (queue.availableRing (seen.toNat % size))

def chain (queue : SplitQueue α size) : Nat → Nat → List (Descriptor α)
  | 0, _ => []
  | fuel + 1, id =>
    let descriptor := queue.descriptors id
    descriptor ::
      if descriptor.chained then queue.chain fuel descriptor.next.toNat else []

theorem chain_congr {queue queue' : SplitQueue α size}
    (same : queue'.descriptors = queue.descriptors) (fuel id : Nat) :
    queue'.chain fuel id = queue.chain fuel id := by
  induction fuel generalizing id with
  | zero => rfl
  | succ fuel ih => simp only [chain, same, ih]

/-- The device returns a chain. -/
def publish (element : UsedElement) : SplitQueue α size :=
  { queue with
    usedRing := update queue.usedRing (queue.usedIndex.toNat % size) element
    usedIndex := queue.usedIndex + 1 }

/-! ## What the rings stand for -/

/-- The entries that were offered and returned, how many of the former the device has fetched
and how many of the latter the driver has taken. -/
structure Books where
  offered : List UInt16 := []
  fetched : Nat := 0
  returned : List UsedElement := []
  taken : Nat := 0

/-- The queue and the device's counter stand for the books. -/
structure Keeps (queue : SplitQueue α size) (seenAvailable : UInt16) (books : Books) : Prop where
  available : Carries size queue.availableRing queue.availableIndex seenAvailable books.offered
    books.fetched
  used : Carries size queue.usedRing queue.usedIndex queue.seenUsed books.returned books.taken

namespace Keeps
variable {queue : SplitQueue α size} {seen : UInt16} {books : Books}

theorem start (round : size ∣ 2 ^ 16) (small : size < 2 ^ 16) :
    Keeps ({} : SplitQueue α size) 0 {} :=
  ⟨Carries.start round small, Carries.start round small⟩

variable (keeps : Keeps queue seen books)
include keeps

theorem offerEntry (room : books.offered.length < books.fetched + size) (id : UInt16) :
    Keeps (queue.offerEntry id) seen books :=
  ⟨keeps.available.store room id, keeps.used⟩

theorem offerIndex {id : UInt16} (room : books.offered.length < books.fetched + size)
    (written : queue.availableRing (queue.availableIndex.toNat % size) = id) :
    Keeps queue.offerIndex seen { books with offered := books.offered ++ [id] } :=
  ⟨keeps.available.count room written, keeps.used⟩

theorem completion_eq_none_iff : queue.completion = none ↔ books.taken = books.returned.length := by
  rw [completion, ← keeps.used.seen_eq_index_iff]
  split <;> simp_all

theorem take (ready : queue.completion = some element) :
    books.returned[books.taken]? = some element ∧
      Keeps queue.take seen { books with taken := books.taken + 1 } := by
  have waiting : books.taken < books.returned.length := by
    refine Nat.lt_of_le_of_ne keeps.used.order fun none => ?_
    rw [keeps.completion_eq_none_iff.mpr none] at ready
    cases ready
  have apart : queue.seenUsed ≠ queue.usedIndex := fun same =>
    Nat.ne_of_lt waiting (keeps.used.seen_eq_index_iff.mp same)
  obtain ⟨found, later⟩ := keeps.used.take waiting
  rw [completion, if_neg apart] at ready
  rw [SplitQueue.take, if_neg apart]
  exact ⟨found.trans ready, keeps.available, later⟩

theorem nextAvailable_eq_none_iff :
    queue.nextAvailable seen = none ↔ books.fetched = books.offered.length := by
  rw [nextAvailable, ← keeps.available.seen_eq_index_iff]
  split <;> simp_all

theorem fetch {id : UInt16} (ready : queue.nextAvailable seen = some id) :
    books.offered[books.fetched]? = some id ∧
      Keeps queue (seen + 1) { books with fetched := books.fetched + 1 } := by
  have waiting : books.fetched < books.offered.length := by
    refine Nat.lt_of_le_of_ne keeps.available.order fun none => ?_
    rw [keeps.nextAvailable_eq_none_iff.mpr none] at ready
    cases ready
  have apart : seen ≠ queue.availableIndex := fun same =>
    Nat.ne_of_lt waiting (keeps.available.seen_eq_index_iff.mp same)
  obtain ⟨found, later⟩ := keeps.available.take waiting
  rw [nextAvailable, if_neg apart] at ready
  exact ⟨found.trans ready, later, keeps.used⟩

theorem publish (room : books.returned.length < books.taken + size) (element : UsedElement) :
    Keeps (queue.publish element) seen { books with returned := books.returned ++ [element] } :=
  ⟨keeps.available, keeps.used.append room element⟩

end Keeps
end SplitQueue
end Mikos.Drivers
