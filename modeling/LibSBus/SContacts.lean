import Mathlib.Data.Finset.Lattice.Fold
import Mathlib.Order.Lattice.Nat
import LibSBus.SockAddr
import LibSBus.Lib.Index
import LibSBus.Lib.Runs

/-!
The contacts table: records on the heap and four maps that lead to them.

Three points of the source have no defined behaviour, and the model fixes what
happens there. The `string&` that `updateSocket` keeps across `erase` refers to freed
memory, so the name it copies is any string, `CallEnv.stale`. Incrementing `lastPeerId`
past the largest `int` has no result, and `add` returns none there. And a record that is
read after `delete` is assumed to show what was last written at its address. This helps
the code where the allocator would write to freed memory: `operator new` may hand out
any address that is not live, one just freed included, which is the choice of
`CallEnv.addr`, but until then the record stays as it was.

The loop of `doCleanUp` goes on from an iterator it has erased. Here every sweep visits
each entry once all the same; `Sweeps` has what the iterator reads.

The activity stamps are kept apart from the records because every getter writes
them and nothing but the sweep reads them.
-/

namespace LibSBus

open Lib

abbrev Ptr := Nat

/-- `SPeerInfo`, with the stamp left to the heap. -/
structure SPeerInfo where
  peer : SBusPeer
  ip : IP
  port : Port
  socket : SocketType
  name : CString
deriving DecidableEq

/-- `SPeerInfo::getAddr` -/
def SPeerInfo.getAddr (r : SPeerInfo) : CString := ipnport2addr r.ip r.port

structure Heap where
  cell : Ptr → SPeerInfo
  lastActivity : Ptr → Int
  live : Finset Ptr

namespace Heap

/-- Where `operator new` puts a record: at `addr`, unless that is in use. -/
def place (h : Heap) (addr : Ptr) : Ptr :=
  if addr ∈ h.live then h.live.sup id + 1 else addr

def write (h : Heap) (q : Ptr) (now : Int) (r : SPeerInfo) : Heap :=
  { cell := Function.update h.cell q r
    lastActivity := Function.update h.lastActivity q now
    live := insert q h.live }

def delete (h : Heap) (p : Ptr) : Heap := { h with live := h.live.erase p }

/-- What every getter of `SPeerInfo` does besides reading. -/
def touch (h : Heap) (now : Int) (p : Ptr) : Heap :=
  { h with lastActivity := Function.update h.lastActivity p now }

theorem place_not_mem (h : Heap) (addr : Ptr) : h.place addr ∉ h.live := by
  unfold place
  split
  case isTrue used =>
    intro found
    have bound : h.live.sup id + 1 ≤ h.live.sup id := Finset.le_sup (f := id) found
    exact Nat.not_succ_le_self _ bound
  case isFalse free => exact free

end Heap

/-- What a call finds outside the table: the clock, the address the allocator
chooses, and the text left in a freed name. -/
structure CallEnv where
  now : Int
  addr : Ptr
  stale : CString

structure SContacts where
  lastPeerId : Int
  peers : Index SBusPeer Ptr
  addr2peer : Index CString Ptr
  name2peer : Index CString Ptr
  socket2peer : Index SocketType Ptr
  lastCleanUp : Int
  heap : Heap

namespace SContacts

/-- `MAX_ALLOWED_PEERINFO_IDLE_S` -/
def maxAllowedPeerinfoIdleS : Int := 7200

/-- `MIN_CLEANUP_PERIOD_S` -/
def minCleanupPeriodS : Int := 120

/-- The constructor. What unallocated memory holds is never read. -/
def empty : SContacts :=
  { lastPeerId := 0, peers := ∅, addr2peer := ∅, name2peer := ∅, socket2peer := ∅
    lastCleanUp := -1
    heap := { cell := fun _ => ⟨0, 0, 0, -1, []⟩, lastActivity := fun _ => 0, live := ∅ } }

/-- The record at an address. -/
abbrev info (c : SContacts) (p : Ptr) : SPeerInfo := c.heap.cell p

/-- `find(int ip, unsigned short port)` -/
def findIpPort (c : SContacts) (ip : IP) (port : Port) : Option Ptr :=
  c.addr2peer.lookup (ipnport2addr ip port)

/-- `find(string name)` -/
def findName (c : SContacts) (name : CString) : Option Ptr := c.name2peer.lookup name

def findFromSocket (c : SContacts) (socket : SocketType) : Option Ptr :=
  c.socket2peer.lookup socket

/-- `find(SBusPeer peer)` -/
def findPeer (c : SContacts) (peer : SBusPeer) : Option Ptr := c.peers.lookup peer

/-- A getter called on the record at `p`. -/
def touch (c : SContacts) (now : Int) (p : Ptr) : SContacts :=
  { c with heap := c.heap.touch now p }

/-- `show`. It only prints, but it prints through the getters of every record. -/
def showAll (c : SContacts) (now : Int) : SContacts :=
  { c with heap := c.peers.entries.foldl (fun h it => h.touch now it.2) c.heap }

/-- The body of the loop of `doCleanUp`. The record is not deleted. -/
def evict (now : Int) (c : SContacts) (it : Sigma fun _ : SBusPeer => Ptr) : SContacts :=
  if now - c.heap.lastActivity it.2 > maxAllowedPeerinfoIdleS then
    { c with
      peers := c.peers.erase it.1
      addr2peer := c.addr2peer.erase (c.info it.2).getAddr
      name2peer := c.name2peer.erase (c.info it.2).name
      socket2peer := c.socket2peer.erase (c.info it.2).socket
      heap := c.heap.touch now it.2 }
  else c

/-- The loop of `doCleanUp`, each entry visited once. -/
def sweep (c : SContacts) (now : Int) : SContacts := c.peers.entries.foldl (evict now) c

def doCleanUp (c : SContacts) (now : Int) : SContacts :=
  if now - c.lastCleanUp > minCleanupPeriodS then
    sweep { c with lastCleanUp := now } now
  else c

def erase (c : SContacts) (now : Int) (p : Ptr) : SContacts :=
  { c with
    peers := c.peers.erase (c.info p).peer
    addr2peer := c.addr2peer.erase (c.info p).getAddr
    name2peer := c.name2peer.erase (c.info p).name
    socket2peer := c.socket2peer.erase (c.info p).socket
    heap := (c.heap.touch now p).delete p }

/-- The block that ends `add`, `updateSocket` and `updateName`: a new record,
entered in the four maps, and `show`. -/
def file (c : SContacts) (e : CallEnv) (r : SPeerInfo) : Ptr × SContacts :=
  let q := c.heap.place e.addr
  (q, showAll { c with
    peers := c.peers.insert r.peer q
    addr2peer := c.addr2peer.insert r.getAddr q
    name2peer := c.name2peer.insert r.name q
    socket2peer := c.socket2peer.insert r.socket q
    heap := c.heap.write q e.now r } e.now)

/-- The new record has the peer, ip and port of the old one, read before
`erase`; its name is read after it, through a reference into the old record. -/
def updateSocket (c : SContacts) (e : CallEnv) (p : Ptr) (socket : SocketType) :
    Ptr × SContacts :=
  (c.erase e.now p).file e { c.info p with socket := socket, name := e.stale }

def updateName (c : SContacts) (e : CallEnv) (p : Ptr) (name : CString) : Ptr × SContacts :=
  (c.erase e.now p).file e { c.info p with name := name }

def add (c : SContacts) (e : CallEnv) (socket : SocketType) (ip : IP) (port : Port)
    (name : CString) : Option (Ptr × SContacts) :=
  match c.findIpPort ip port with
  | some peerInfo => some (peerInfo, c)
  | none =>
      match c.findName name with
      | some peerInfo => some (peerInfo, c)
      | none =>
          let c := c.doCleanUp e.now
          if c.lastPeerId = intMax then none
          else
            let c := { c with lastPeerId := c.lastPeerId + 1 }
            some (c.file e { peer := c.lastPeerId, ip, port, socket, name })

/-- The live contacts: records not deleted that are the entry of `peers` under
their own id. -/
def contacts (c : SContacts) : Set Ptr :=
  {p | p ∈ c.heap.live ∧ Index.Filed SPeerInfo.peer c.heap.cell c.peers p}

instance (c : SContacts) : DecidablePred (· ∈ c.contacts) := fun p =>
  inferInstanceAs (Decidable (p ∈ c.heap.live ∧ c.peers.lookup (c.info p).peer = some p))

/-- The calls on a table. -/
inductive Op
  | add (e : CallEnv) (socket : SocketType) (ip : IP) (port : Port) (name : CString)
  | updateSocket (e : CallEnv) (p : Ptr) (socket : SocketType)
  | updateName (e : CallEnv) (p : Ptr) (name : CString)
  | doCleanUp (now : Int)
  | getter (now : Int) (p : Ptr)

/-- One call. The updates are called with live contacts only. -/
def exec (c : SContacts) : Op → Option SContacts
  | .add e socket ip port name => (c.add e socket ip port name).map Prod.snd
  | .updateSocket e p socket => if p ∈ c.contacts then some (c.updateSocket e p socket).2 else none
  | .updateName e p name => if p ∈ c.contacts then some (c.updateName e p name).2 else none
  | .doCleanUp now => some (c.doCleanUp now)
  | .getter now p => some (c.touch now p)

end SContacts

end LibSBus
