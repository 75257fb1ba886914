import Mikos.Process.Basic

/-!
# Paths

Names of files are made absolute and free of dot components before they are looked up.
-/

namespace Mikos.Process
open Library
namespace Path

/-- The size of a path with its zero byte. -/
def capacity : Nat := 256

def slash : UInt8 := 0x2f

def isDigit (character : UInt8) : Bool := 0x30 ≤ character && character ≤ 0x39

/-- The digits at the front of a text as a number below `limit`, if only digits are left. -/
def numberFrom (limit : Nat) : Text → Nat → Option Nat
  | [], value => if value < limit then some value else none
  | character :: rest, value =>
    let digit := character.toNat - 0x30
    if ¬ isDigit character then none
    else if limit ≤ digit ∨ (limit - 1 - digit) / 10 < value then none
    else numberFrom limit rest (value * 10 + digit)

/-- The number that follows a given stem and ends the text. -/
def numberedSuffix (name stem : Text) (limit : Nat) : Option Nat :=
  if limit ≠ 0 ∧ stem.isPrefixOf name ∧ (name.drop stem.length).head?.any isDigit then
    numberFrom limit (name.drop stem.length) 0
  else none

/-- The components between slashes; empty ones stay. -/
def components : Text → List Text
  | [] => [[]]
  | character :: rest =>
    match components rest with
    | [] => [[character]]
    | first :: others =>
      if character = slash then [] :: first :: others
      else (character :: first) :: others

/-- Cut the last component. -/
def parentDirectory (output : Text) : Text :=
  let kept := (output.reverse.dropWhile (· ≠ slash)).reverse
  if 1 < kept.length then kept.dropLast else kept

/-- Append one component to an absolute path. -/
def append (output component : Text) : Option Text :=
  if component = [] ∨ component = text ['.'] then
    some output
  else if component = text ['.', '.'] then
    some (parentDirectory output)
  else
    let separator := if 1 < output.length then [slash] else []
    if capacity - output.length ≤ component.length + separator.length then none
    else some (output ++ separator ++ component)

/-- Append components as long as there is room. -/
def appendAll : List Text → Text → Bool × Text
  | [], output => (true, output)
  | component :: rest, output =>
    match append output component with
    | none => (false, output)
    | some output => appendAll rest output

/-- Whether the path fits, and what was written of it. -/
def canonicalize (currentDirectory path : Text) : Bool × Text :=
  if path = [] then (false, [])
  else
    let base :=
      if path.head? = some slash then []
      else if currentDirectory.getLast? = some slash then currentDirectory
      else currentDirectory ++ [slash]
    let combined := base ++ path
    if 2 * capacity ≤ combined.length then (false, [])
    else appendAll (components combined) [slash]

end Path

/-- A text of the user that ends within `capacity` bytes. -/
def copyUserString (memory : Bytes) : (address capacity : Nat) → Option Text
  | _, 0 => none
  | address, capacity + 1 =>
    if ¬ UserContains address 1 then none
    else if memory address = 0 then some []
    else (copyUserString memory (address + 1) capacity).map (memory address :: ·)

end Mikos.Process
