import Mathlib.Data.UInt

/-!
# Regions of a flat memory

A flat memory that is used through regions which do not meet is a store of
independent contents: overwriting a part of one region changes that region only.
-/

namespace Mikos.Library
open Function

/-- Overwrite `size` cells from `offset` on. -/
def splice {α : Type} (old : Nat → α) (offset size : Nat) (cells : Nat → α) : Nat → α :=
  fun position =>
    if offset ≤ position ∧ position < offset + size then cells (position - offset)
    else old position

section Splice
variable {α : Type} {old cells : Nat → α} {offset size position : Nat}

theorem splice_inside (inside : offset ≤ position ∧ position < offset + size) :
    splice old offset size cells position = cells (position - offset) :=
  if_pos inside

theorem splice_outside (outside : position < offset ∨ offset + size ≤ position) :
    splice old offset size cells position = old position :=
  if_neg (by omega)

/-- Overwriting a range in two parts, from one source. -/
theorem splice_append (old source : Nat → α) (offset start first second : Nat) :
    splice (splice old offset first fun position => source (start + position))
        (offset + first) second (fun position => source (start + first + position)) =
      splice old offset (first + second) fun position => source (start + position) := by
  funext position
  by_cases later : offset + first ≤ position ∧ position < offset + first + second
  · rw [splice_inside later, splice_inside (by omega)]
    congr 1
    omega
  · rw [splice, if_neg later]
    by_cases earlier : offset ≤ position ∧ position < offset + first
    · rw [splice_inside earlier, splice_inside (by omega)]
    · rw [splice_outside (by omega), splice_outside (by omega)]

end Splice

/-- Two ranges that do not meet. -/
def Apart (start length start' length' : Nat) : Prop :=
  start + length ≤ start' ∨ start' + length' ≤ start
deriving Decidable

/-- Regions with their extent in a flat memory. -/
structure Regions (ι : Type) where
  start : ι → Nat
  length : ι → Nat
  valid : ι → Prop
  apart : ∀ {left right}, valid left → valid right → left ≠ right →
    Apart (start left) (length left) (start right) (length right)

namespace Regions
variable {ι α : Type} [Zero α] (regions : Regions ι)

open Classical in
noncomputable def contents (memory : Nat → α) (region : ι) : Nat → α := fun position =>
  if regions.valid region ∧ position < regions.length region then
    memory (regions.start region + position)
  else 0

variable {regions} {region other : ι} {memory : Nat → α}

theorem contents_apply (valid : regions.valid region) (inside : position < regions.length region) :
    regions.contents memory region position = memory (regions.start region + position) :=
  if_pos ⟨valid, inside⟩

theorem contents_splice [DecidableEq ι] (valid : regions.valid region)
    (inside : within + size ≤ regions.length region) (cells : Nat → α) :
    regions.contents (splice memory (regions.start region + within) size cells) =
      update (regions.contents memory) region
        (splice (regions.contents memory region) within size cells) := by
  funext other position
  by_cases same : other = region
  · subst same
    rw [update_self]
    by_cases bound : position < regions.length other
    · rw [contents_apply valid bound, splice, splice, contents_apply valid bound]
      by_cases changed : within ≤ position ∧ position < within + size
      · rw [if_pos (by omega), if_pos changed]
        congr 1
        omega
      · rw [if_neg (by omega), if_neg changed]
    · rw [contents, if_neg (by simp [bound]), splice, if_neg (by omega), contents,
        if_neg (by simp [bound])]
  rw [update_of_ne same]
  by_cases readable : regions.valid other ∧ position < regions.length other
  · rw [contents_apply readable.1 readable.2, contents_apply readable.1 readable.2, splice, if_neg]
    have apart := regions.apart readable.1 valid same
    rw [Apart] at apart
    omega
  · rw [contents, contents, if_neg readable, if_neg readable]

end Regions
end Mikos.Library
