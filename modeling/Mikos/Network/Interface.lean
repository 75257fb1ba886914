import Mikos.Network.Tcp

/-!
# The network interface

State of the one interface and the requests that read or change it.  The value
of a request is a union of sixteen bytes, stored little-endian as on every
supported machine.
-/

namespace Mikos.Network

def interfaceIndex : UInt32 := 1

def interfaceUp : UInt16 := 0x0001

def interfaceBroadcast : UInt16 := 0x0002

def interfaceRunning : UInt16 := 0x0040

def interfaceMulticast : UInt16 := 0x1000

structure InterfaceState where
  mac : MacAddress := {}
  address : Ipv4Address := .of 10 0 2 15
  netmask : Ipv4Address := .of 255 255 255 0
  broadcast : Ipv4Address := .of 10 0 2 255
  flags : UInt16 := interfaceUp ||| interfaceBroadcast ||| interfaceRunning ||| interfaceMulticast
  deriving DecidableEq, Repr

inductive InterfaceControlResult where
  | success | noDevice | invalidArgument | unsupported
  deriving DecidableEq, Repr

/-- An interface request: a name and the bytes of the value union. -/
structure Ifreq32 where
  name : List UInt8
  value : List UInt8
  deriving DecidableEq, Repr

def interfaceNameMatches (name : List UInt8) : Bool :=
  name.take 5 = [0x65, 0x74, 0x68, 0x30, 0]

def native16Octets (value : UInt16) : List UInt8 :=
  [value.toUInt8, (value >>> 8).toUInt8]

def native16At (bytes : List UInt8) (offset : Nat) : UInt16 :=
  (octetAt bytes offset).toUInt16 ||| ((octetAt bytes (offset + 1)).toUInt16 <<< 8)

/-- Store a 32-bit member of the value union. -/
def writeNumber (request : Ifreq32) (number : UInt32) : Ifreq32 :=
  { request with
    value := overwrite request.value 0
      (native16Octets number.toUInt16 ++ native16Octets (number >>> 16).toUInt16) }

def writeSockaddrIpv4 (request : Ifreq32) (address : Ipv4Address) : Ifreq32 :=
  { request with
    value := native16Octets 2 ++ [0, 0] ++ address.octet.toList ++ List.replicate 8 0 }

def sockaddrFamily (request : Ifreq32) : UInt16 := native16At request.value 0

def sockaddrIpv4 (request : Ifreq32) : Ipv4Address := ipv4At request.value 4

def updateBroadcast (state : InterfaceState) : InterfaceState :=
  { state with
    broadcast := ⟨Vector.zipWith (fun octet mask => octet ||| ~~~ mask)
      state.address.octet state.netmask.octet⟩ }

/-- Requests that set an address accept internet addresses only. -/
def setAddress (state : InterfaceState) (request : Ifreq32)
    (store : InterfaceState → Ipv4Address → InterfaceState) :
    InterfaceControlResult × InterfaceState × Ifreq32 :=
  if sockaddrFamily request ≠ 2 then (.invalidArgument, state, request)
  else (.success, store state (sockaddrIpv4 request), request)

def applyInterfaceIoctl (state : InterfaceState) (request : UInt32) (value : Ifreq32) :
    InterfaceControlResult × InterfaceState × Ifreq32 :=
  if interfaceNameMatches value.name = false then (.noDevice, state, value)
  else
    match request.toNat with
    | 0x8933 => (.success, state, writeNumber value interfaceIndex)
    | 0x8913 =>
      (.success, state,
        { value with value := overwrite value.value 0 (native16Octets state.flags) })
    | 0x891d => (.success, state, writeNumber value 0)
    | 0x8921 => (.success, state, writeNumber value 1500)
    | 0x8942 => (.success, state, writeNumber value 1000)
    | 0x8914 => (.success, { state with flags := native16At value.value 0 }, value)
    | 0x8915 => (.success, state, writeSockaddrIpv4 value state.address)
    | 0x8916 =>
      setAddress state value fun state address => updateBroadcast { state with address }
    | 0x891b => (.success, state, writeSockaddrIpv4 value state.netmask)
    | 0x891c =>
      setAddress state value fun state netmask => updateBroadcast { state with netmask }
    | 0x8919 => (.success, state, writeSockaddrIpv4 value state.broadcast)
    | 0x891a => setAddress state value fun state broadcast => { state with broadcast }
    | 0x8927 =>
      (.success, state,
        { value with
          value := native16Octets 1 ++ state.mac.octet.toList ++ List.replicate 8 0 })
    | _ => (.unsupported, state, value)

end Mikos.Network
