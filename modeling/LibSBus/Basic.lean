import Mathlib.Data.List.Basic

/-!
The data every part of the library passes around: descriptors, peer ids,
addresses, byte strings and the messages that travel between the receiving
thread and the application. A C++ string is its bytes. An `int` that only names
something (a descriptor, a peer id) is an `Int`; widths are kept where the code
depends on them.
-/

namespace LibSBus

abbrev CString := List UInt8
abbrev SocketType := Int
abbrev SBusPeer := Int
abbrev IP := BitVec 32
abbrev Port := BitVec 16

/-- `INVALID_SOCKET` -/
def invalidSocket : SocketType := -1

/-- `SBUS_FIND` -/
def sbusFind : Int := 0

/-- `SBUS_MANAMEIS` -/
def sbusManameis : Int := -1

/-- `SBUS_NAMETAKEN` -/
def sbusNametaken : Int := -2

/-- `ERRCODE_PEER_DISCONNECTED` -/
def errcodePeerDisconnected : Int := -1

/-- `MAX_DATALEN`, one megabyte. -/
def maxDatalen : Int := 1 * 1024 * 1024

/-- `HDRLEN`, the size of `smsg_header`. -/
def hdrlen : Nat := 8

/-- The largest `int`. Signed overflow past it has no defined behaviour. -/
def intMax : Int := 2147483647

/-- The value a `short` parameter receives from an `int` argument. -/
def toShort (n : Int) : Int := (BitVec.ofInt 16 n).toInt

/-- What a message shows where it arrives: of the tag, the sixteen bits of a `short`. -/
def cut {α : Type*} (message : Int × α) : Int × α := (toShort message.1, message.2)

/-- `SMsg`: a received message, or the report of a lost connection. -/
structure SMsg where
  msgtag : Int
  ip : IP
  port : Port
  socket : SocketType
  msg : CString
  error : Bool
deriving DecidableEq

/-- The second constructor of `SMsg`, which leaves the body empty. -/
def SMsg.ofError (errcode : Int) (ip : IP) (port : Port) (socket : SocketType) : SMsg :=
  { msgtag := errcode, ip, port, socket, msg := [], error := true }

end LibSBus
