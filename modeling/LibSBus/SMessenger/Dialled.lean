import LibSBus.Lib.Inet
import LibSBus.SMessenger.Connect

/-!
The address `SMessenger::connect` dials. The ip of a contact is an `int` whose
bytes are printed, parsed again by `inet_aton` and kept in network order; what the
kernel is given stands for the same ip and port.
-/

namespace LibSBus

open Lib

def AF_INET : BitVec 16 := 2

/-- `IP_ADDR_STR_LENGTH`, the size of the `ipstr` of `connect`. -/
def ipAddrStrLength : Nat := 16

/-- `sockaddr_in`: the port and the address are in network order. -/
structure SockAddrIn where
  sinFamily : BitVec 16
  sinPort : BitVec 16
  sinAddr : BitVec 32
deriving DecidableEq

/-- `sockaddr_set`: -1 where `inet_aton` refuses the text, with the port not set. -/
def sockaddrSet (ip : CString) (port : Int) : Int × SockAddrIn :=
  let addr : SockAddrIn := { sinFamily := AF_INET, sinPort := 0, sinAddr := 0 }
  match inetAton ip with
  | none => (-1, addr)
  | some sinAddr => (0, { addr with sinAddr, sinPort := swap16 (BitVec.ofInt 16 port) })

/-- `sockaddr_getPort` -/
def sockaddrGetPort (addr : SockAddrIn) : Int := (swap16 addr.sinPort).toNat

/-- `sockaddr_getIP` returns the address as an `int`. -/
def sockaddrGetIP (addr : SockAddrIn) : Int := (swap32 addr.sinAddr).toInt

/-- The `remote` of `stcp_client`, which does not look at what `sockaddr_set` returns. -/
def stcpRemote (ip : CString) (port : Int) : SockAddrIn := (sockaddrSet ip port).2

namespace SMessenger

/-- `stcp_client`, with the addresses the kernel is asked to connect to. -/
def stcpClientDialling (m : SMessenger) (env : ConnectEnv) (ip : CString) (port : Int) :
    (SocketType × SMessenger) × List SockAddrIn :=
  match env.socket with
  | none => ((-1, m), [])
  | some (sock, s) =>
      let m := m.setSock sock s
      let remote := stcpRemote ip port
      if env.connected ≠ .done then
        if EAGAIN ≠ 0 ∨ EWOULDBLOCK ≠ 0 then ((sock, m), [remote]) else ((-1, m), [remote])
      else ((sock, m), [remote])

/-- `SMessenger::connect`, with the addresses the kernel is asked to connect to. -/
def connectDialling (m : SMessenger) (kernel : CString → Port → ConnectEnv) (ip : IP)
    (port : Port) : (SocketType × SMessenger) × List SockAddrIn :=
  let env := kernel (int2ip ip) port
  match m.stcpClientDialling env (int2ip ip) port.toNat with
  | ((fd, m), dialled) =>
      if fd < 0 then ((-1, m), dialled)
      else if stcpWaitConnection env.waited < 0 then ((-1, m), dialled)
      else if env.added then ((fd, { m with spoll := m.spoll ++ [fd] }), dialled)
      else ((-1, m), dialled)

end SMessenger

/-- The address stands for this ip and port. -/
structure SockAddrIn.StandsFor (addr : SockAddrIn) (ip : IP) (port : Port) : Prop where
  family : addr.sinFamily = AF_INET
  ip : sockaddrGetIP addr = ip.toInt
  port : sockaddrGetPort addr = port.toNat

/-- The bytes that are printed are those of the number. -/
theorem toNat_eq_bytes (ip : IP) :
    ip.toNat = 256 * (256 * (256 * ipByte ip 3 + ipByte ip 2) + ipByte ip 1) + ipByte ip 0 := by
  have small := ip.isLt
  simp only [ipByte, BitVec.extractLsb'_toNat, Nat.shiftRight_eq_div_pow]
  omega

theorem inetAton_int2ip (ip : IP) : inetAton (int2ip ip) = some (swap32 ip) := by
  rw [int2ip, inetAton_dotted (ipByte_lt ip 3) (ipByte_lt ip 2) (ipByte_lt ip 1) (ipByte_lt ip 0),
    ← toNat_eq_bytes, BitVec.ofNat_toNat]
  simp

theorem sockaddrSet_int2ip (ip : IP) (port : Port) :
    sockaddrSet (int2ip ip) port.toNat =
      (0, { sinFamily := AF_INET, sinPort := swap16 port, sinAddr := swap32 ip }) := by
  have narrow : BitVec.ofInt 16 (port.toNat : Int) = port := by
    rw [BitVec.ofInt_natCast, BitVec.ofNat_toNat, BitVec.setWidth_eq]
  simp [sockaddrSet, inetAton_int2ip, narrow]

namespace SMessenger

/-- With a socket, one address is dialled, and the rest is as without the record. -/
theorem stcpClientDialling_eq (m : SMessenger) (env : ConnectEnv) (ip : CString) (port : Int) :
    m.stcpClientDialling env ip port =
      (m.stcpClient env, if env.socket.isSome then [stcpRemote ip port] else []) := by
  unfold stcpClientDialling stcpClient
  cases env.socket with
  | none => rfl
  | some connection =>
      dsimp only
      split
      · split <;> rfl
      · rfl

theorem connectDialling_eq (m : SMessenger) (kernel : CString → Port → ConnectEnv) (ip : IP)
    (port : Port) :
    m.connectDialling kernel ip port =
      (m.connectTo kernel ip port,
        if (kernel (int2ip ip) port).socket.isSome then [stcpRemote (int2ip ip) port.toNat]
        else []) := by
  unfold connectDialling connectTo connectWith
  simp only [stcpClientDialling_eq]
  split
  · rfl
  · split
    · rfl
    · split <;> rfl

/-- Whatever the ip and port of a contact, its text fits and is accepted, and every
call of `connect` that gets a socket dials one address, which stands for them. -/
theorem dials_contact (m : SMessenger) (ip : IP) (port : Port) :
    ∃ remote : SockAddrIn,
      (∀ kernel : CString → Port → ConnectEnv, m.connectDialling kernel ip port =
        (m.connectTo kernel ip port,
          if (kernel (int2ip ip) port).socket.isSome then [remote] else [])) ∧
      sockaddrSet (int2ip ip) port.toNat = (0, remote) ∧
      remote.StandsFor ip port ∧
      (int2ip ip).length + 1 ≤ ipAddrStrLength := by
  have set := sockaddrSet_int2ip ip port
  refine ⟨_, fun kernel => ?_, set, ?_, length_int2ip ip⟩
  · rw [connectDialling_eq, stcpRemote, set]
  · constructor
    · rfl
    · simp [sockaddrGetIP, swap32_swap32]
    · simp [sockaddrGetPort, swap16_swap16]

/-- The contact 192.168.1.10:8080: the kernel gets its bytes in network order. -/
example (m : SMessenger) (env : ConnectEnv) (made : env.socket.isSome) :
    (m.connectDialling (fun _ _ => env) 0xC0A8010A 8080).2 =
      [{ sinFamily := AF_INET, sinPort := 0x901F, sinAddr := 0x0A01A8C0 }] := by
  rw [connectDialling_eq, if_pos made]
  show [stcpRemote (int2ip 0xC0A8010A) 8080] = _
  decide

end SMessenger

end LibSBus
