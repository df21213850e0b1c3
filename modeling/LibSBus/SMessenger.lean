import LibSBus.Basic
import LibSBus.Lib.Frames
import Mathlib.Logic.Function.Basic

/-!
`SMessenger`: the header codec, sending to one peer, and receiving from all
sockets. What the kernel holds for a descriptor is part of the state. Bytes or
datagrams that were sent but have not arrived yet are on the socket's `wire`;
`arrive` moves some of them to where `recvfrom` sees them, and the model lets
any number arrive before each step of a call that could tell the difference.

`poll`, `accept` and the reopening of sockets answer as the environment of the
call says. Where there is nothing to read, `recvfrom` returns `EAGAIN`. On an accepted
connection, which is never made non-blocking, the source would wait there; but `recv`
reads a descriptor only when `poll` has reported input on it, and then there is
something to read. `spoll` is the list of the registered descriptors in the order of
the array. The stack a call of `recv` takes is not counted here.
-/

namespace LibSBus

open Lib

/-- `int bytes=msg.size()` -/
def toInt (n : Nat) : Int := (BitVec.ofNat 32 n).toInt

/-- `SMessenger::packhdr`: code, port and length in network order. -/
def packhdr (msgtag : Int) (port : Port) (bytes : Int) : CString :=
  bigEndian 2 (BitVec.ofInt 16 msgtag).toNat ++ bigEndian 2 port.toNat ++
    bigEndian 4 (BitVec.ofInt 32 bytes).toNat

/-- `SMessenger::unpackhdr`: the tag, the port and the length. -/
def unpackhdr (hdr : CString) : Int × Port × Int :=
  ((BitVec.ofNat 16 (fromBigEndian (hdr.take 2))).toInt,
    BitVec.ofNat 16 (fromBigEndian ((hdr.drop 2).take 2)),
    (BitVec.ofNat 32 (fromBigEndian (hdr.drop 4))).toInt)

/-- `SMessenger::send` to one peer, on the bytes its stream holds. The kernel
takes up to `accepts` bytes or fails. A negative count reaches `memcpy` as a
huge one, and then there is no result. -/
def sendUnicast (tcpPort : Port) (msgtag : Int) (msg : CString) (accepts : Option Nat)
    (stream : CString) : Option (Int × CString) :=
  let bytes := toInt msg.length
  if bytes > maxDatalen then some (-1, stream)
  else if bytes < 0 then none
  else
    let total2send := hdrlen + bytes.toNat
    let buf := packhdr (toShort msgtag) tcpPort bytes ++ msg.take bytes.toNat
    match accepts with
    | none => some (-1, stream)
    | some n =>
        let sent := min n total2send
        if sent ≠ total2send then some (-1, stream ++ buf.take sent)
        else some (0, stream ++ buf)

/-- A datagram with the address it came from. -/
structure Datagram where
  ip : IP
  bytes : CString
deriving DecidableEq

inductive Sock
  | stream (wire buffer : CString) (eof : Bool) (remote : IP)
  | dgram (wire queue : List Datagram)
  | closed

/-- What `recvfrom` returns. -/
inductive Recvfrom
  | eagain
  | error
  | bytes (b : CString)

namespace Sock

def arrive (n : Nat) : Sock → Sock
  | .stream wire buffer eof remote => .stream (wire.drop n) (buffer ++ wire.take n) eof remote
  | .dgram wire queue => .dgram (wire.drop n) (queue ++ wire.take n)
  | .closed => .closed

/-- `recvfrom` of up to `n` bytes with `MSG_PEEK`. -/
def recvfrom (n : Nat) : Sock → Recvfrom
  | .stream wire [] eof _ => if eof ∧ wire = [] then .bytes [] else .eagain
  | .stream _ buffer _ _ => .bytes (buffer.take n)
  | .dgram _ [] => .eagain
  | .dgram _ (d :: _) => .bytes (d.bytes.take n)
  | .closed => .error

/-- What `recvfrom` of `n` bytes takes away without `MSG_PEEK`: of a datagram,
all of it. -/
def consume (n : Nat) : Sock → Sock
  | .stream wire buffer eof remote => .stream wire (buffer.drop n) eof remote
  | .dgram wire queue => .dgram wire queue.tail
  | .closed => .closed

/-- The address `recvfrom` stores; none for a stream. -/
def source : Sock → IP
  | .dgram _ (d :: _) => d.ip
  | _ => 0

/-- `stcp_getIP` -/
def getIP : Sock → IP
  | .stream _ _ _ remote => remote
  | _ => -1

end Sock

/-- The outcomes of `nextMsg`: -1, 0, or a message. -/
inductive Next
  | error
  | pending
  | message (msgtag : Int) (ip : IP) (port : Port) (data : CString)

/-- `SMessenger::nextMsg` with a buffer of `len` bytes. Of the socket's wire,
`late` arrives before the second peek and `later` before the extraction. -/
def nextMsg (len : Int) (s : Sock) (late later : Nat) : Next × Sock :=
  if len ≤ 0 then (.error, s)
  else
    match s.recvfrom hdrlen with
    | .error => (.error, s)
    | .eagain => (.pending, s)
    | .bytes head =>
        if 0 < head.length ∧ head.length < hdrlen then (.pending, s)
        else if head.length = 0 then (.error, s)
        else
          let (msgtag, port, datasize) := unpackhdr head
          if datasize < 0 then (.error, s)
          else if datasize > len then (.error, s)
          else
            let total := hdrlen + datasize.toNat
            let s := s.arrive late
            match s.recvfrom total with
            | .error => (.error, s)
            | .eagain => (.pending, s)
            | .bytes peeked =>
                if peeked.length < total then (.pending, s)
                else
                  let s := s.arrive later
                  match s.recvfrom total with
                  | .error => (.error, s)
                  | .eagain => (.error, s)
                  | .bytes buf =>
                      if buf.length < total then (.error, s.consume total)
                      else
                        let ip := if s.source = 0 then s.getIP else s.source
                        (.message msgtag ip port (buf.drop hdrlen), s.consume total)

structure SMessenger where
  servsock : SocketType
  mcsock : SocketType
  ip : IP
  port : Port
  spoll : List SocketType
  sock : SocketType → Sock

def POLLIN : BitVec 16 := 0x001
def POLLERR : BitVec 16 := 0x008
def POLLHUP : BitVec 16 := 0x010
def POLLNVAL : BitVec 16 := 0x020

/-- What `poll` reports for one entry of the table, what arrives before the loop
comes to it (anywhere) and while it is read (on it), and the number a reopened
multicast socket would get, unless that fails. -/
structure Look where
  revents : BitVec 16
  arrivals : SocketType → Nat
  late : Nat
  later : Nat
  reopened : Option SocketType

def Look.has (look : Look) (flag : BitVec 16) : Prop := look.revents &&& flag ≠ 0

instance (look : Look) (flag : BitVec 16) : Decidable (look.has flag) :=
  inferInstanceAs (Decidable (_ ≠ _))

/-- `revents` has `POLLHUP`, `POLLERR` or `POLLNVAL`. -/
def Look.Problem (look : Look) : Prop :=
  look.has POLLHUP ∨ look.has POLLERR ∨ look.has POLLNVAL

instance (look : Look) : Decidable look.Problem := inferInstanceAs (Decidable (_ ∨ _))

/-- What `poll` and `accept` answer on the server socket. -/
inductive Listen
  | idle
  | broken (reopened : Option SocketType)
  | incoming (accepted : Option (SocketType × Sock))

/-- A call of `recv`: the server socket, then one pass over the table for each
time `doPoll` returns in time. -/
structure RecvEnv where
  listen : Listen
  passes : List (List Look)

namespace SMessenger

def setSock (m : SMessenger) (fd : SocketType) (s : Sock) : SMessenger :=
  { m with sock := Function.update m.sock fd s }

def arrive (m : SMessenger) (arrivals : SocketType → Nat) : SMessenger :=
  { m with sock := fun fd => (m.sock fd).arrive (arrivals fd) }

/-- `initServer` and `initMCast` give the socket an invalid number when they fail. -/
def initServer (m : SMessenger) : Option SocketType → Int × SMessenger
  | none => (-1, { m with servsock := invalidSocket })
  | some fd => (0, { m with servsock := fd })

def initMCast (m : SMessenger) : Option SocketType → SMessenger
  | none => { m with mcsock := invalidSocket }
  | some fd =>
      { m.setSock fd (.dgram [] []) with mcsock := fd, spoll := m.spoll ++ [fd] }

def listenConn (m : SMessenger) : Listen → Int × SMessenger
  | .idle => (0, m)
  | .broken reopened => m.initServer reopened
  | .incoming none => (-1, m)
  | .incoming (some (fd, s)) => (0, { m.setSock fd s with spoll := m.spoll ++ [fd] })

def socketErrorHandling (m : SMessenger) (fd : SocketType) (reopened : Option SocketType) :
    SMessenger :=
  if fd = m.mcsock then (m.setSock fd .closed).initMCast reopened
  else { m.setSock fd .closed with spoll := m.spoll.erase fd }

/-- The body of the loop of `recv` over the table. -/
def visit (m : SMessenger) (fd : SocketType) (look : Look) : Option SMsg × SMessenger :=
  let m := m.arrive look.arrivals
  if fd ≠ 0 ∧ look.revents ≠ 0 then
    if look.Problem then
      (some (SMsg.ofError errcodePeerDisconnected 0 0 fd),
        m.socketErrorHandling fd look.reopened)
    else if look.has POLLIN then
      match nextMsg maxDatalen (m.sock fd) look.late look.later with
      | (.error, s) =>
          (some (SMsg.ofError errcodePeerDisconnected 0 0 fd),
            (m.setSock fd s).socketErrorHandling fd look.reopened)
      | (.pending, s) => (none, m.setSock fd s)
      | (.message msgtag ip port msg, s) =>
          if fd > 0 then
            (some { msgtag, ip, port, socket := fd, msg, error := false }, m.setSock fd s)
          else (none, m.setSock fd s)
    else (none, m)
  else (none, m)

/-- One pass, up to the first message. -/
def pass (m : SMessenger) : List (SocketType × Look) → Option SMsg × SMessenger
  | [] => (none, m)
  | (fd, look) :: rest =>
      match m.visit fd look with
      | (some msg, m) => (some msg, m)
      | (none, m) => m.pass rest

/-- The `while` of `recv`. -/
def polls (m : SMessenger) : List (List Look) → Option SMsg × SMessenger
  | [] => (none, m)
  | looks :: more =>
      match m.pass (m.spoll.zip looks) with
      | (some msg, m) => (some msg, m)
      | (none, m) => m.polls more

def recv (m : SMessenger) (env : RecvEnv) : Option SMsg × SMessenger :=
  match m.listenConn env.listen with
  | (res, m) => if res < 0 then (none, m) else m.polls env.passes

/-- The constructor, with what `stcp_server` and `sudp_mcast` return and the port
of the server socket. It throws when there is no socket. -/
def construct (ip : IP) (servsock : SocketType) (port : Port) (mcsock : SocketType) :
    Option SMessenger :=
  if servsock < 0 then none
  else if mcsock < 0 then none
  else
    some (initMCast { servsock, mcsock := invalidSocket, ip, port, spoll := []
                      sock := fun _ => .closed } (some mcsock))

/-- `SMessenger::connect`. `stcp_client` fails only without a socket: where the
connection fails it assigns `EAGAIN` to `errno` and returns the socket. `polled`
is whether the `poll` of `stcp_waitConnection` succeeds, in time or not. -/
def connect (m : SMessenger) (client : Option (SocketType × Sock)) (polled : Bool) :
    SocketType × SMessenger :=
  match client with
  | none => (-1, m)
  | some (fd, s) =>
      let m := m.setSock fd s
      if polled then (fd, { m with spoll := m.spoll ++ [fd] }) else (-1, m)

/-- `SMessenger::send` over multicast, with the datagram that is sent. `sendto`
takes all of it or fails. A negative count reaches `memcpy` as a huge one, and
then there is no result. -/
def sendMulticast (m : SMessenger) (msgtag : Int) (msg : CString) (accepted : Bool) :
    Option (Int × Option CString) :=
  let bytes := toInt msg.length
  if bytes > maxDatalen then some (-1, none)
  else if bytes < 0 then none
  else
    let buf := packhdr (toShort msgtag) m.port bytes ++ msg.take bytes.toNat
    if accepted then some (0, some buf) else some (-1, none)

end SMessenger

end LibSBus
