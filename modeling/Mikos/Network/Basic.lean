import Mathlib.Data.UInt

/-!
# Addresses and protocol timing

The small shared vocabulary of the network code: link and internet addresses
and the clock constants.  Clock values are 64-bit tick counts whose differences
are taken modulo `2 ^ 64`.
-/

namespace Mikos.Network

/-- Link-layer address. -/
structure MacAddress where
  octet : Vector UInt8 6 := .replicate 6 0
  deriving DecidableEq, Repr

/-- Internet address; the default value is the unspecified address. -/
structure Ipv4Address where
  octet : Vector UInt8 4 := .replicate 4 0
  deriving DecidableEq, Repr

def Ipv4Address.of (a b c d : UInt8) : Ipv4Address := ⟨#v[a, b, c, d]⟩

/-- One side of a connection. -/
structure Endpoint where
  address : Ipv4Address := {}
  port : UInt16 := 0
  deriving DecidableEq, Repr

/-- The all-zero address, which stands for every local address in a bind. -/
def unspecified (address : Ipv4Address) : Bool :=
  address = {}

/-! ## Timing constants -/

def tcpSecond : UInt64 := 10000000

def tcpInitialRto : UInt64 := tcpSecond

def tcpMaxRto : UInt64 := 60 * tcpSecond

def tcpUserTimeout : UInt64 := 120 * tcpSecond

def tcpSynTimeout : UInt64 := 120 * tcpSecond

def tcpFinWaitTimeout : UInt64 := 120 * tcpSecond

def tcpTimeWait : UInt64 := 120 * tcpSecond

def tcpDriverRetry : UInt64 := tcpSecond / 100

/-- A deadline has passed; the wrapped difference also orders times across the
wrap of the clock. -/
def deadlineReached (now deadline : UInt64) : Bool :=
  now - deadline < 0x8000000000000000

/-- Exponential backoff, capped at the longest retransmission timeout. -/
def backoff (delay : UInt64) : UInt64 :=
  min (delay * 2) tcpMaxRto

end Mikos.Network
