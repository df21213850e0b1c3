import LibSBus.SBus.Changes

/-!
What is known of every record the maps lead to. It leaves out the records that
are no contacts any more, and what unallocated memory holds, so it can speak of
what some message has shown. Nothing else is assumed about the maps: the entries
of a key may lead anywhere.
-/

namespace LibSBus

open Lib

namespace SContacts

variable {P Q : IP → Port → SocketType → Prop} {c d : SContacts} {e : CallEnv} {now : Int}
  {p x : Ptr} {r : SPeerInfo}

/-- Some map of the table has an entry for `x`. -/
def Leads (c : SContacts) (x : Ptr) : Prop :=
  (∃ k, c.peers.lookup k = some x) ∨ (∃ k, c.addr2peer.lookup k = some x) ∨
    (∃ k, c.name2peer.lookup k = some x) ∨ ∃ k, c.socket2peer.lookup k = some x

/-- `d` is `c` with entries taken away. -/
structure Thinner (c d : SContacts) : Prop where
  cell : d.heap.cell = c.heap.cell
  leads : ∀ x, d.Leads x → c.Leads x

theorem Thinner.trans {c' : SContacts} (first : Thinner c d) (second : Thinner d c') :
    Thinner c c' where
  cell := second.cell.trans first.cell
  leads x leads := first.leads x (second.leads x leads)

theorem leads_of_erased {k : SBusPeer} {addr name : CString} {socket : SocketType} {heap : Heap}
    (leads : Leads { c with
      peers := c.peers.erase k
      addr2peer := c.addr2peer.erase addr
      name2peer := c.name2peer.erase name
      socket2peer := c.socket2peer.erase socket
      heap } x) : c.Leads x := by
  rcases leads with ⟨k, entry⟩ | ⟨k, entry⟩ | ⟨k, entry⟩ | ⟨k, entry⟩
  · exact .inl ⟨k, (Index.lookup_erase_eq_some.mp entry).2⟩
  · exact .inr (.inl ⟨k, (Index.lookup_erase_eq_some.mp entry).2⟩)
  · exact .inr (.inr (.inl ⟨k, (Index.lookup_erase_eq_some.mp entry).2⟩))
  · exact .inr (.inr (.inr ⟨k, (Index.lookup_erase_eq_some.mp entry).2⟩))

theorem thinner_erase (c : SContacts) (now : Int) (p : Ptr) : Thinner c (c.erase now p) :=
  ⟨rfl, fun _ leads => leads_of_erased leads⟩

theorem thinner_sweep (now : Int) (l : List (Sigma fun _ : SBusPeer => Ptr)) (c : SContacts) :
    Thinner c (l.foldl (evict now) c) := by
  induction l generalizing c with
  | nil => exact ⟨rfl, fun _ leads => leads⟩
  | cons it l ih =>
      have first : Thinner c (evict now c it) := by
        unfold evict
        split
        case isTrue idle => exact ⟨rfl, fun _ leads => leads_of_erased leads⟩
        case isFalse busy => exact ⟨rfl, fun _ leads => leads⟩
      exact first.trans (ih _)

theorem thinner_doCleanUp (c : SContacts) (now : Int) : Thinner c (c.doCleanUp now).bump := by
  unfold doCleanUp
  split
  case isTrue due =>
    obtain ⟨cell, leads⟩ := thinner_sweep now c.peers.entries { c with lastCleanUp := now }
    exact ⟨cell, leads⟩
  case isFalse early => exact ⟨rfl, fun _ leads => leads⟩

/-- An entry either was there before the record was filed or leads to it. -/
theorem leads_file (leads : (c.file e r).2.Leads x) : x = (c.file e r).1 ∨ c.Leads x := by
  rcases leads with ⟨k, entry⟩ | ⟨k, entry⟩ | ⟨k, entry⟩ | ⟨k, entry⟩ <;>
    rcases Index.lookup_insert_eq_some.mp entry with ⟨_, new⟩ | ⟨_, old⟩
  · exact .inl new.symm
  · exact .inr (.inl ⟨k, old⟩)
  · exact .inl new.symm
  · exact .inr (.inr (.inl ⟨k, old⟩))
  · exact .inl new.symm
  · exact .inr (.inr (.inr (.inl ⟨k, old⟩)))
  · exact .inl new.symm
  · exact .inr (.inr (.inr (.inr ⟨k, old⟩)))

/-- Every record the maps lead to shows an address and a socket that `P` allows. -/
def Listed (P : IP → Port → SocketType → Prop) (c : SContacts) : Prop :=
  ∀ x, c.Leads x → P (c.info x).ip (c.info x).port (c.info x).socket

theorem listed_empty : Listed P empty := by
  rintro x (⟨k, entry⟩ | ⟨k, entry⟩ | ⟨k, entry⟩ | ⟨k, entry⟩) <;> simp [empty] at entry

theorem Listed.mono (listed : Listed P c)
    (weaker : ∀ ip port socket, P ip port socket → Q ip port socket) : Listed Q c :=
  fun x leads => weaker _ _ _ (listed x leads)

theorem Listed.thinner (listed : Listed P c) (thinner : Thinner c d) : Listed P d := by
  intro x leads
  rw [info, thinner.cell]
  exact listed x (thinner.leads x leads)

theorem Listed.file (listed : Listed P c) (new : P r.ip r.port r.socket) :
    Listed P (c.file e r).2 := by
  intro x leads
  rcases leads_file leads with rfl | old
  · rw [info_file_self]
    exact new
  · exact info_file_keeps_at (P := fun r => P r.ip r.port r.socket) (listed x old) new

theorem Listed.refile (listed : Listed P c) (new : P r.ip r.port r.socket) :
    Listed P ((c.erase now p).file e r).2 :=
  (listed.thinner (thinner_erase c now p)).file new

theorem Listed.enter (listed : Listed P c) (new : P r.ip r.port r.socket) :
    Listed P ((c.doCleanUp e.now).bump.file e r).2 :=
  (listed.thinner (thinner_doCleanUp c e.now)).file new

end SContacts

namespace SBus

open SContacts

variable {P : IP → Port → SocketType → Prop} {b b' : SBus} {env : StepEnv} {smsg : SMsg}
  {p : Ptr} {e : CallEnv} {id peer : SBusPeer} {actions : List Action}

/-- What the message shows is what the record of its sender shows then, also through
the pointer that `updateSocket` replaced. -/
theorem listed_sender (listed : Listed P b.scontacts)
    (unconnected : smsg.socket = b.mcsock → P smsg.ip smsg.port invalidSocket)
    (connected : smsg.socket ≠ b.mcsock → P smsg.ip smsg.port smsg.socket)
    (updated : smsg.socket ≠ b.mcsock → ∀ q,
      b.scontacts.findIpPort smsg.ip smsg.port = some q →
        P (b.scontacts.info q).ip (b.scontacts.info q).port smsg.socket)
    (call : b.sender e smsg = some (p, b')) :
    Listed P b'.scontacts ∧ P (b'.scontacts.info p).ip (b'.scontacts.info p).port
      (b'.scontacts.info p).socket := by
  rcases sender_cases call with ⟨held, rfl⟩ | ⟨_, found, rfl⟩ | ⟨_, _, named, rfl⟩ |
    ⟨_, _, _, _, rfl, rfl⟩
  · exact ⟨listed, listed p (.inr (.inr (.inr ⟨_, held⟩)))⟩
  · have here := listed p (.inr (.inl ⟨_, found⟩))
    split
    case isTrue own =>
      have new := updated own p found
      exact ⟨listed.refile new, info_file_keeps_at (c := b.scontacts.erase e.now p)
        (P := fun r => P r.ip r.port r.socket) here new⟩
    case isFalse shared => exact ⟨listed, here⟩
  · exact ⟨listed, listed p (.inr (.inr (.inl ⟨_, named⟩)))⟩
  · have new : P (b.newcomer smsg).ip (b.newcomer smsg).port (b.newcomer smsg).socket := by
      unfold newcomer recordedSocket
      split
      case isTrue own => exact connected own
      case isFalse shared => exact unconnected (not_not.mp shared)
    refine ⟨listed.enter new, ?_⟩
    rw [info_file_self]
    exact new

theorem listed_send {env : SendEnv} {msgtag res : Int} {msg : CString}
    (listed : Listed P b.scontacts)
    (connected : ∀ ip port socket, P ip port socket → socket < 0 →
      .connect ip port env.connect ∈ actions → P ip port env.connect)
    (call : b.send env msgtag peer msg = (res, b', actions)) : Listed P b'.scontacts := by
  rcases send_cases env msgtag msg call with ⟨_, rfl, _⟩ | ⟨q, found, ⟨_, rfl, _⟩ |
    ⟨shut, _, _, rfl, rfl⟩ | ⟨_, _, _, rfl, _⟩ | ⟨_, _, rfl, _⟩⟩
  · exact listed
  · exact listed
  · have here := listed q (.inl ⟨_, found⟩)
    exact Listed.refile (c := b.scontacts.touch env.call.now q) listed
      (connected _ _ _ here shut List.mem_cons_self)
  · exact listed
  · exact listed

theorem listed_renamed (listed : Listed P b.scontacts) (e : CallEnv) (smsg : SMsg)
    (own : P (b.scontacts.info p).ip (b.scontacts.info p).port (b.scontacts.info p).socket) :
    Listed P (b.renamed e smsg p).scontacts := by
  unfold renamed
  split
  case isTrue announces => exact listed.refile own
  case isFalse quiet => exact listed

theorem listed_handle (listed : Listed P b.scontacts)
    (own : P (b.scontacts.info p).ip (b.scontacts.info p).port (b.scontacts.info p).socket)
    (connected : ∀ ip port socket, P ip port socket → socket < 0 →
      .connect ip port env.reply.connect ∈ actions → P ip port env.reply.connect)
    (call : b.handle env smsg p peer = (id, b', actions)) : Listed P b'.scontacts := by
  have written := listed_renamed listed env.rename smsg own
  rcases handle_cases call with ⟨_, rfl, _⟩ | ⟨tag, res, _, sent⟩
  · exact written
  · exact listed_send written connected sent

theorem listed_processSMsg (listed : Listed P b.scontacts) (data : smsg.error = false)
    (unconnected : smsg.socket = b.mcsock → P smsg.ip smsg.port invalidSocket)
    (connected : smsg.socket ≠ b.mcsock → P smsg.ip smsg.port smsg.socket)
    (updated : smsg.socket ≠ b.mcsock → ∀ q,
      b.scontacts.findIpPort smsg.ip smsg.port = some q →
        P (b.scontacts.info q).ip (b.scontacts.info q).port smsg.socket)
    (reconnected : ∀ ip port socket, P ip port socket → socket < 0 →
      .connect ip port env.reply.connect ∈ actions → P ip port env.reply.connect)
    (call : b.processSMsg env smsg = some (id, b', actions)) : Listed P b'.scontacts := by
  rcases processSMsg_cases call with ⟨lost, _⟩ | ⟨_, _, _, rfl, _⟩ | ⟨_, _, p, d, found, handled⟩
  · rw [data] at lost
    cases lost
  · exact listed
  · obtain ⟨listed', here⟩ := listed_sender listed unconnected connected updated found
    exact listed_handle (b := d.touch env.lookup.now p) listed' here reconnected handled

end SBus

end LibSBus
