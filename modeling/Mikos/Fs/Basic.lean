import Mikos.Library.LittleEndian

/-!
# Devices and buffers

What the file system drivers share: their errors and the block device.  The device
never fails; it records every write, so that the images a power cut can leave are
given by the beginnings of the record.
-/

namespace Mikos.Fs
open Library

inductive Error where
  | io | invalidArgument | invalidFormat | unsupported | corrupt | outOfBounds
  | notFound | notDirectory | isDirectory | loop | alreadyExists | noSpace
  deriving DecidableEq, Repr

/-! ## Devices -/

structure DeviceWrite where
  offset : Nat
  size : Nat
  bytes : Bytes

def DeviceWrite.apply (image : Bytes) (write : DeviceWrite) : Bytes :=
  splice image write.offset write.size write.bytes

/-- A device with the record of its writes, oldest first. -/
structure Device where
  image : Bytes
  size : Nat
  writes : List DeviceWrite := []
  addressable : size < 2 ^ 64 := by decide

namespace Device

/-- Read into the start of a buffer. -/
def readExact (device : Device) (offset size : Nat) (output : Bytes) : Except Error Bytes :=
  if device.size < offset ∨ device.size - offset < size then
    .error .outOfBounds
  else
    .ok (splice output 0 size fun position => device.image (offset + position))

def writeExact (device : Device) (offset size : Nat) (input : Bytes) : Except Error Device :=
  if device.size < offset ∨ device.size - offset < size then
    .error .outOfBounds
  else
    let write : DeviceWrite := ⟨offset, size, input⟩
    .ok { device with image := write.apply device.image, writes := device.writes ++ [write] }

end Device
end Mikos.Fs
