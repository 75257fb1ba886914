import Mikos.Library.Regions

/-!
# Packing ranges of a memory

Several ranges of a flat memory are copied one behind the other into a buffer of the same
memory, and later copied back to their places.
-/

namespace Mikos.Library
open List

/-- A range of a flat memory. -/
structure Span where
  address : Nat
  size : Nat
  deriving DecidableEq, Repr

namespace Span

def Contains (span : Span) (address : Nat) : Prop :=
  span.address ≤ address ∧ address < span.address + span.size
deriving Decidable

/-- The ranges have no address in common, unless one of them is empty. -/
def Apart (left right : Span) : Prop :=
  left.address + left.size ≤ right.address ∨ right.address + right.size ≤ left.address
deriving Decidable

end Span

/-- The size of all ranges together. -/
def totalSize (spans : List Span) : Nat := (spans.map Span.size).sum

section Packing
variable {α : Type}

/-- Copy the ranges into the buffer at `target`. -/
def pack : List Span → Nat → (Nat → α) → (Nat → α)
  | [], _, memory => memory
  | span :: rest, target, memory =>
    pack rest (target + span.size)
      (splice memory target span.size fun position => memory (span.address + position))

/-- Copy the buffer at `source` back to the ranges. -/
def unpack : List Span → Nat → (Nat → α) → (Nat → α)
  | [], _, memory => memory
  | span :: rest, source, memory =>
    unpack rest (source + span.size)
      (splice memory span.address span.size fun position => memory (source + position))

variable {spans : List Span} {target address : Nat} {memory before after : Nat → α}

@[simp] theorem totalSize_nil : totalSize [] = 0 := rfl

@[simp] theorem totalSize_cons (span : Span) (rest : List Span) :
    totalSize (span :: rest) = span.size + totalSize rest := by
  simp [totalSize]

theorem pack_outside (outside : address < target ∨ target + totalSize spans ≤ address) :
    pack spans target memory address = memory address := by
  induction spans generalizing target memory with
  | nil => rfl
  | cons span rest ih =>
    rw [totalSize_cons] at outside
    rw [pack, ih (by omega), splice_outside (by omega)]

theorem unpack_outside (outside : ∀ span ∈ spans, ¬ span.Contains address) :
    unpack spans target memory address = memory address := by
  induction spans generalizing target memory with
  | nil => rfl
  | cons span rest ih =>
    have apart := outside span mem_cons_self
    rw [Span.Contains] at apart
    rw [unpack, ih fun other mem => outside other (mem_cons_of_mem _ mem),
      splice_outside (by omega)]

/-- No range meets the buffer. -/
def Clear (spans : List Span) (target size : Nat) : Prop :=
  ∀ span ∈ spans, ∀ address, span.Contains address → address < target ∨ target + size ≤ address

/-- What was packed is what unpacking puts back, whatever happened to the ranges in
between. -/
theorem unpack_pack (clear : Clear spans target (totalSize spans))
    (kept : ∀ address, target ≤ address → address < target + totalSize spans →
      after address = pack spans target before address) (address : Nat) :
    unpack spans target after address =
      if ∃ span ∈ spans, span.Contains address then before address else after address := by
  induction spans generalizing target before after with
  | nil => simp [unpack]
  | cons span rest ih =>
    have first := clear span mem_cons_self
    rw [totalSize_cons] at kept first
    -- the later ranges are packed from the same bytes, since the first one went to the buffer
    have later : Clear rest (target + span.size) (totalSize rest) := by
      intro other mem place inside
      have apart := clear other (mem_cons_of_mem _ mem) place inside
      rw [totalSize_cons] at apart
      omega
    have stillKept : ∀ place, target + span.size ≤ place →
        place < target + span.size + totalSize rest →
        splice after span.address span.size (fun i => after (target + i)) place =
          pack rest (target + span.size)
            (splice before target span.size fun i => before (span.address + i))
            place := by
      intro place low high
      have outside : ¬ span.Contains place := by
        intro inside
        have apart := first place inside
        omega
      rw [Span.Contains] at outside
      rw [splice_outside (by omega), kept place (by omega) (by omega), pack]
    rw [unpack, ih later stillKept]
    by_cases inRest : ∃ other ∈ rest, other.Contains address
    · obtain ⟨other, mem, inside⟩ := inRest
      have apart := clear other (mem_cons_of_mem _ mem) address inside
      rw [totalSize_cons] at apart
      rw [if_pos ⟨other, mem, inside⟩,
        if_pos ⟨other, mem_cons_of_mem _ mem, inside⟩, splice_outside (by omega)]
    rw [if_neg inRest]
    by_cases inside : span.Contains address
    · rw [if_pos ⟨span, mem_cons_self, inside⟩]
      have place := inside
      rw [Span.Contains] at place
      rw [splice_inside place, kept _ (by omega) (by omega), pack,
        pack_outside (by omega), splice_inside (by omega)]
      congr 1
      omega
    have apart := inside
    rw [Span.Contains] at apart
    rw [splice_outside (by omega), if_neg]
    rintro ⟨other, mem, contained⟩
    rcases mem_cons.mp mem with rfl | mem
    · exact inside contained
    · exact inRest ⟨other, mem, contained⟩

end Packing
end Mikos.Library
