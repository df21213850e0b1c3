import LibSBus.Lib.Traces
import LibSBus.SContacts.Indexes

/-!
What the two updates read of the record they replace, and when. Both save fields
of the record, delete it inside `erase`, and build the new one from what they
saved. `updateName` saves copies. `updateSocket` saves the name as a `string&`,
which reads nothing, and the constructor reads through it when the record is
gone.

Followed are the accesses to the old record, from the call to the constructor of
the new one. The getters stamp the record besides; that is left to the tables.
-/

namespace LibSBus

open Lib

/-- The fields of a record. `getAddr` makes its text from the ip and the port. -/
inductive Field
  | peer | ip | port | socket | name
deriving DecidableEq

/-- What a call returns, telling its accesses to records. -/
abbrev Reading := Writer (List (ObjectAccess Ptr Field))

namespace SContacts

/-- A getter reads fields of the record at `p`. -/
def getter {α : Type} (c : SContacts) (p : Ptr) (fields : List Field) (get : SPeerInfo → α) :
    Reading α := do
  tell (fields.map (.read p))
  return get (c.info p)

def getPeer (c : SContacts) (p : Ptr) : Reading SBusPeer := c.getter p [.peer] SPeerInfo.peer

def getIP (c : SContacts) (p : Ptr) : Reading IP := c.getter p [.ip] SPeerInfo.ip

def getPort (c : SContacts) (p : Ptr) : Reading Port := c.getter p [.port] SPeerInfo.port

def getSocket (c : SContacts) (p : Ptr) : Reading SocketType :=
  c.getter p [.socket] SPeerInfo.socket

/-- `getName`, and the text read through the reference it returns. -/
def getName (c : SContacts) (p : Ptr) : Reading CString := c.getter p [.name] SPeerInfo.name

def getAddr (c : SContacts) (p : Ptr) : Reading CString :=
  c.getter p [.ip, .port] SPeerInfo.getAddr

/-- `erase` -/
def eraseReading (c : SContacts) (now : Int) (p : Ptr) : Reading SContacts := do
  let peer ← c.getPeer p
  let addr ← c.getAddr p
  let name ← c.getName p
  let socket ← c.getSocket p
  tell [.free p]
  return { c with
    peers := c.peers.erase peer
    addr2peer := c.addr2peer.erase addr
    name2peer := c.name2peer.erase name
    socket2peer := c.socket2peer.erase socket
    heap := (c.heap.touch now p).delete p }

/-- The name read through a reference into a record that may be gone. -/
def danglingName (e : CallEnv) (p : Ptr) : Reading CString := do
  tell [.read p .name]
  return e.stale

/-- `updateSocket` -/
def updateSocketReading (c : SContacts) (e : CallEnv) (p : Ptr) (socket : SocketType) :
    Reading (Ptr × SContacts) := do
  let oldPeer ← c.getPeer p
  let oldIp ← c.getIP p
  let oldPort ← c.getPort p
  -- `string& oldName` is bound here
  let c ← c.eraseReading e.now p
  let oldName ← danglingName e p
  return c.file e { peer := oldPeer, ip := oldIp, port := oldPort, socket, name := oldName }

/-- `updateName` -/
def updateNameReading (c : SContacts) (e : CallEnv) (p : Ptr) (name : CString) :
    Reading (Ptr × SContacts) := do
  let oldPeer ← c.getPeer p
  let oldSocket ← c.getSocket p
  let oldIp ← c.getIP p
  let oldPort ← c.getPort p
  let c ← c.eraseReading e.now p
  return c.file e { peer := oldPeer, ip := oldIp, port := oldPort, socket := oldSocket, name }

variable {c : SContacts} {e : CallEnv} {p : Ptr} {socket : SocketType} {name : CString}

@[simp] theorem value_eraseReading (now : Int) :
    value (c.eraseReading now p) = c.erase now p := rfl

@[simp] theorem value_updateSocketReading :
    value (c.updateSocketReading e p socket) = c.updateSocket e p socket := rfl

@[simp] theorem value_updateNameReading :
    value (c.updateNameReading e p name) = c.updateName e p name := rfl

/-- The record an update makes. -/
def made (update : Reading (Ptr × SContacts)) : SPeerInfo :=
  (value update).2.info (value update).1

/-- The update makes the record that is wanted, of values it read while the old
record was there. -/
def BuiltBefore (update : Reading (Ptr × SContacts)) (wanted : SPeerInfo) : Prop :=
  made update = wanted ∧ ReadsLive (trace update)

/-- Nine times a field is read, and then the record is deleted. -/
theorem reads_updateName : reads [] (trace (c.updateNameReading e p name)) =
    List.replicate 9 (p, false) := by
  simp [updateNameReading, eraseReading, getPeer, getSocket, getIP, getPort, getAddr, getName,
    getter, reads, List.replicate]

/-- Eight times a field is read; then the record is deleted, and its name read. -/
theorem reads_updateSocket : reads [] (trace (c.updateSocketReading e p socket)) =
    List.replicate 8 (p, false) ++ [(p, true)] := by
  simp [updateSocketReading, eraseReading, getPeer, getSocket, getIP, getPort, getAddr, getName,
    getter, danglingName, reads, List.replicate]

theorem updateName_builtBefore (c : SContacts) (e : CallEnv) (p : Ptr) (name : CString) :
    BuiltBefore (c.updateNameReading e p name) { c.info p with name } := by
  refine ⟨info_file_self, fun read member => ?_⟩
  rw [reads_updateName] at member
  rw [List.eq_of_mem_replicate member]

theorem not_readsLive_updateSocket : ¬ ReadsLive (trace (c.updateSocketReading e p socket)) := by
  intro live
  have name := live (p, true) (by simp [reads_updateSocket])
  cases name

/-- The id, the address and the socket of the new record are right. Its name is
what is left where the old one was. -/
theorem made_updateSocket : made (c.updateSocketReading e p socket) =
    { c.info p with socket, name := e.stale } := info_file_self

theorem made_updateSocket_iff :
    made (c.updateSocketReading e p socket) = { c.info p with socket } ↔
      e.stale = (c.info p).name := by
  simp [made_updateSocket]

/-- The only contact of a table gets a socket. -/
theorem name_read_after_free :
    ¬ ∀ (c : SContacts) e socket, ∀ p ∈ c.contacts,
      BuiltBefore (c.updateSocketReading e p socket) { c.info p with socket } := by
  intro built
  let c := (empty.file ⟨10, 0, []⟩ ⟨1, 2, 20, -1, [97]⟩).2
  have contact : 0 ∈ c.contacts := by decide +kernel
  have live := (built c ⟨11, 1, [97]⟩ 5 0 contact).2
  exact absurd live (by decide +kernel)

/-- Whatever the table, the contact and the socket, the name of the new record is
read from the deleted one. -/
theorem updateSocket_never_builtBefore (c : SContacts) (e : CallEnv) (p : Ptr)
    (socket : SocketType) :
    ¬ BuiltBefore (c.updateSocketReading e p socket) { c.info p with socket } :=
  fun built => not_readsLive_updateSocket built.2

end SContacts

end LibSBus
