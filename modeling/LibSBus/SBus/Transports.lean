import LibSBus.SBus.Senders

/-!
One remote instance, heard over multicast and over TCP. It listens on one port
and says so in its multicast frames, but a frame on a connection it opened shows
the port of its end of the connection. A receiver that has no contact for the
descriptor looks for one with that port and, where there is none, adds one that
cannot be connected to; multicast frames then lead to another one. What is
proved is that the instance is one contact, with the port it listens on, as long
as all its messages lead to a contact with that port.
-/

namespace LibSBus

open Lib

/-- Where a remote instance listens. -/
structure Remote where
  ip : IP
  port : Port
  listens : port ≠ 0

namespace SContacts

variable {c : SContacts} {p x : Ptr} {r : SPeerInfo} {e : CallEnv} {now : Int}
  {A : Int → IP × Port} {remote : Remote} {k : SBusPeer}

/-- The record has the address of the remote instance. -/
def IsAt (r : SPeerInfo) (remote : Remote) : Prop := r.ip = remote.ip ∧ r.port = remote.port

instance (r : SPeerInfo) (remote : Remote) : Decidable (IsAt r remote) :=
  inferInstanceAs (Decidable (_ ∧ _))

/-- No record has the address, and none ever had. -/
def Unmet (remote : Remote) (c : SContacts) : Prop := ∀ x, ¬ IsAt (c.info x) remote

/-- The address belongs to the id `k`, and a contact has it. -/
structure Met (remote : Remote) (k : SBusPeer) (c : SContacts) : Prop where
  issued : (k : Int) ≤ c.lastPeerId
  own : ∀ x, IsAt (c.info x) remote → (c.info x).peer = k
  found : c.findIpPort remote.ip remote.port ≠ none

theorem unmet_empty : Unmet remote empty := fun _ at_ => remote.listens at_.2.symm

theorem SameContact.isAt_iff {r' : SPeerInfo} (same : SameContact r r') :
    IsAt r remote ↔ IsAt r' remote := by
  rw [IsAt, IsAt, same.2.1, same.2.2]

theorem Unmet.refile (unmet : Unmet remote c) (same : SameContact r (c.info p)) (now : Int)
    (e : CallEnv) : Unmet remote ((c.erase now p).file e r).2 :=
  info_file_keeps (c := c.erase now p) (P := fun r => ¬ IsAt r remote) unmet
    (same.isAt_iff.not.mpr (unmet p))

theorem Unmet.updateSocket (unmet : Unmet remote c) (e : CallEnv) (p : Ptr)
    (socket : SocketType) : Unmet remote (c.updateSocket e p socket).2 :=
  unmet.refile (r := { c.info p with socket := socket, name := e.stale }) ⟨rfl, rfl, rfl⟩ e.now e

/-- An address stays known through an update. -/
theorem findIpPort_replace {ip : IP} {port : Port} (same : SameContact r (c.info p))
    (known : c.findIpPort ip port ≠ none) :
    ((c.erase now p).file e r).2.findIpPort ip port ≠ none := by
  obtain ⟨x, found⟩ := Option.ne_none_iff_exists'.mp known
  have own : r.getAddr = (c.info p).getAddr := by
    rw [SPeerInfo.getAddr, SPeerInfo.getAddr, same.2.1, same.2.2]
  by_cases here : ipnport2addr ip port = r.getAddr
  · exact Option.ne_none_iff_exists'.mpr
      ⟨_, Index.lookup_insert_eq_some.mpr (.inl ⟨here, rfl⟩)⟩
  · exact Option.ne_none_iff_exists'.mpr ⟨x, Index.lookup_insert_eq_some.mpr
      (.inr ⟨here, Index.lookup_erase_eq_some.mpr ⟨own ▸ here, found⟩⟩)⟩

theorem Met.refile (met : Met remote k c) (same : SameContact r (c.info p)) (now : Int)
    (e : CallEnv) : Met remote k ((c.erase now p).file e r).2 where
  issued := met.issued
  own := info_file_keeps (c := c.erase now p) (P := fun r => IsAt r remote → r.peer = k) met.own
    fun at_ => same.1.trans (met.own p (same.isAt_iff.mp at_))
  found := findIpPort_replace same met.found

theorem Met.updateSocket (met : Met remote k c) (e : CallEnv) (p : Ptr) (socket : SocketType) :
    Met remote k (c.updateSocket e p socket).2 :=
  met.refile (r := { c.info p with socket := socket, name := e.stale }) ⟨rfl, rfl, rfl⟩ e.now e

theorem Met.touch (met : Met remote k c) (now : Int) (p : Ptr) : Met remote k (c.touch now p) :=
  ⟨met.issued, met.own, met.found⟩

/-- The contact with the address has the id. -/
theorem Met.storedAddress_eq (met : Met remote k c) (assigned : Assigned A c) :
    c.findPeer k ≠ none ∧ c.storedAddress k = some (remote.ip, remote.port) := by
  obtain ⟨p, found⟩ := Option.ne_none_iff_exists'.mp met.found
  have address := findIpPort_address assigned.sound found
  have filed : Index.Filed SPeerInfo.getAddr c.heap.cell c.addr2peer p := by
    rw [Index.Filed, SPeerInfo.getAddr, address.1, address.2]
    exact found
  have known : c.findPeer k = some p := by
    have entry := assigned.paired p filed
    rw [Index.Filed, met.own p address] at entry
    exact entry
  refine ⟨by simp [known], ?_⟩
  rw [storedAddress, known, Option.map_some, address.1, address.2]

/-- A newcomer from elsewhere leaves the address to its id, unless the clean-up
before it evicts the contact. -/
theorem Met.enter (met : Met remote k c) (assigned : Assigned A c)
    (own : r.peer = c.lastPeerId + 1) (elsewhere : ¬ IsAt r remote) (e : CallEnv) :
    Met remote k ((c.doCleanUp e.now).bump.file e r).2 ∨
      ((c.doCleanUp e.now).bump.file e r).2.findPeer k = none := by
  have removed := removed_bump assigned.sound e.now
  have apart : k ≠ r.peer := by
    rw [own]
    exact Int.ne_of_lt (Int.lt_add_one_of_le met.issued)
  have next : ((c.doCleanUp e.now).bump.file e r).2.lastPeerId = c.lastPeerId + 1 :=
    bump_lastPeerId
  by_cases evicted : ∃ x ∈ c.victims e.now, (c.info x).peer = k
  · obtain ⟨x, victim, same⟩ := evicted
    refine .inr (Option.eq_none_iff_forall_ne_some.mpr fun y entry => ?_)
    rcases Index.lookup_insert_eq_some.mp entry with ⟨new, _⟩ | ⟨_, old⟩
    · exact apart new
    · exact ((removed.peers k y).mp old).2 x victim same
  · refine .inl ⟨next ▸ Int.le_add_one met.issued, ?_, ?_⟩
    · refine info_file_keeps (P := fun r => IsAt r remote → r.peer = k) (fun x => ?_)
        fun at_ => absurd at_ elsewhere
      rw [info_bump c e.now _ assigned.sound]
      exact met.own x
    · obtain ⟨p, found⟩ := Option.ne_none_iff_exists'.mp met.found
      have kept := (removed.addrs _ p).mpr ⟨found, fun x victim same =>
        evicted ⟨x, victim, met.own x (ipnport2addr_inj.mp same)⟩⟩
      have other : ipnport2addr remote.ip remote.port ≠ r.getAddr := fun same =>
        elsewhere (ipnport2addr_inj.mp same.symm)
      exact Option.ne_none_iff_exists'.mpr
        ⟨p, Index.lookup_insert_eq_some.mpr (.inr ⟨other, kept⟩)⟩

/-- The remote instance itself is entered where it was not met before. -/
theorem Unmet.enter (unmet : Unmet remote c) (sound : IndexesSound c c.heap.live)
    (here : IsAt r remote) (own : r.peer = c.lastPeerId + 1) (e : CallEnv) :
    Met remote r.peer ((c.doCleanUp e.now).bump.file e r).2 where
  issued := by
    rw [own]
    exact le_of_eq bump_lastPeerId.symm
  own := by
    refine info_file_keeps (P := fun r' => IsAt r' remote → r'.peer = r.peer) (fun x at_ => ?_)
      fun _ => rfl
    rw [info_bump c e.now _ sound] at at_
    exact absurd at_ (unmet x)
  found := by
    rw [← here.1, ← here.2]
    exact Option.ne_none_iff_exists'.mpr
      ⟨_, Index.lookup_insert_eq_some.mpr (.inl ⟨rfl, rfl⟩)⟩

theorem Unmet.enter_other (unmet : Unmet remote c) (sound : IndexesSound c c.heap.live)
    (elsewhere : ¬ IsAt r remote) (e : CallEnv) :
    Unmet remote ((c.doCleanUp e.now).bump.file e r).2 := by
  refine info_file_keeps (P := fun r => ¬ IsAt r remote) (fun x => ?_) elsewhere
  rw [info_bump c e.now _ sound]
  exact unmet x

end SContacts

/-- A bus, the ids it has given to the messages of a remote instance, and whether
a contact that was given as its has been evicted. -/
structure Peering where
  bus : SBus
  given : List SBusPeer
  evicted : Bool

namespace SBus

open SContacts

/-- The contact `processSMsg` finds a message to be from: by its descriptor, by the
address it shows, or by the bus's own name. -/
def contactOf (b : SBus) (smsg : SMsg) : Option Ptr :=
  (b.scontacts.findFromSocket smsg.socket).or
    ((b.scontacts.findIpPort smsg.ip smsg.port).or (b.scontacts.findName b.name))

/-- The message leads to a contact with the address of the remote instance, or to
none, and then shows that address. -/
def FindsRemote (b : SBus) (remote : Remote) (smsg : SMsg) : Prop :=
  match b.contactOf smsg with
  | some p => IsAt (b.scontacts.info p) remote
  | none => smsg.ip = remote.ip ∧ smsg.port = remote.port

instance (b : SBus) (remote : Remote) (smsg : SMsg) : Decidable (b.FindsRemote remote smsg) := by
  unfold FindsRemote
  split <;> infer_instance

end SBus

namespace Peering

open SContacts

/-- A message processed here is the remote instance's, or another one's. -/
inductive Event
  | setName (name : CString)
  | send (env : SendEnv) (msgtag : Int) (peer : SBusPeer) (msg : CString)
  | remote (env : StepEnv) (smsg : SMsg)
  | other (env : StepEnv) (smsg : SMsg)

def start (serverIP : IP) (serverPort : Port) (mcsock : SocketType) : Peering :=
  { bus := SBus.init serverIP serverPort mcsock, given := [], evicted := false }

/-- The bus goes on to `bus`, and `ids` are given to messages of the remote instance. -/
def advance (s : Peering) (bus : SBus) (ids : List SBusPeer) : Peering :=
  { bus, given := s.given ++ ids
    evicted := s.evicted || s.given.any fun id => bus.scontacts.findPeer id = none }

/-- The multicast frames of the remote instance show where it listens; its TCP
frames show some port, and nobody else's frames show its address. -/
def step (remote : Remote) (s : Peering) : Event → Option Peering
  | .setName name => some { s with bus := (s.bus.setName name).1 }
  | .send env msgtag peer msg => some (s.advance (s.bus.send env msgtag peer msg).2.1 [])
  | .remote env smsg =>
      if smsg.error = false ∧ ¬ s.bus.isSelf smsg ∧ smsg.ip = remote.ip ∧
          (smsg.socket = s.bus.mcsock → smsg.port = remote.port) then do
        let id ← s.bus.senderId env.lookup smsg
        let (_, bus, _) ← s.bus.processSMsg env smsg
        some (s.advance bus [id])
      else none
  | .other env smsg =>
      if smsg.error = true ∨ ¬ (smsg.ip = remote.ip ∧ smsg.port = remote.port) then
        (s.bus.processSMsg env smsg).map fun (_, bus, _) => s.advance bus []
      else none

/-- While its contact is not evicted, the messages of the remote instance are given
one id, and that contact shows where it listens. -/
def Recognizes (remote : Remote) (s : Peering) : Prop :=
  s.evicted = false →
    (∀ x ∈ s.given, ∀ y ∈ s.given, x = y) ∧
      ∀ x ∈ s.given, s.bus.scontacts.storedAddress x = some (remote.ip, remote.port)

instance (remote : Remote) (s : Peering) : Decidable (s.Recognizes remote) := by
  unfold Recognizes
  infer_instance

/-- An instance announces its name on a connection it opened, and is then heard over
multicast. -/
theorem transports_differ :
    ¬ ∀ remote serverIP serverPort mcsock events,
      Always (Det (step remote)) (Recognizes remote) (start serverIP serverPort mcsock) events := by
  intro always
  let remote : Remote := ⟨2, 20, by decide⟩
  obtain ⟨s, run, differs⟩ : ∃ s, Run (Det (step remote)) (start 1 10 4)
      [.remote ⟨⟨10, 0, []⟩, ⟨10, 1, []⟩, ⟨⟨10, 2, []⟩, -1, 0⟩⟩ ⟨-1, 2, 5000, 5, [97], false⟩,
       .remote ⟨⟨11, 2, []⟩, ⟨11, 3, []⟩, ⟨⟨11, 4, []⟩, -1, 0⟩⟩ ⟨7, 2, 20, 4, [65], false⟩] s ∧
      s.given = [1, 2] ∧ ¬ s.Recognizes remote :=
    ⟨_, run_det_iff.mpr rfl, by decide +kernel, by decide +kernel⟩
  exact differs.2 (always remote 1 10 4 _ _ List.prefix_rfl s run)

/-- When a message of the remote instance is recognized: as long as its contact is
not evicted, it leads to a contact with its address or, where there is none,
shows that address. -/
def Finds (remote : Remote) (s : Peering) : Event → Prop
  | .remote _ smsg => s.evicted = false → s.bus.FindsRemote remote smsg
  | _ => True

instance (remote : Remote) (s : Peering) (event : Event) : Decidable (s.Finds remote event) := by
  cases event <;> unfold Finds <;> infer_instance

end Peering

namespace SBus

open SContacts

variable {b b' d : SBus} {remote : Remote} {A : Int → IP × Port} {k id peer : SBusPeer} {p : Ptr}
  {e : CallEnv} {env : StepEnv} {smsg : SMsg} {actions : List Action}

/-- A contact that is missing stays missing when another one is filed again. -/
theorem missing_replace {c : SContacts} {r : SPeerInfo} {now : Int} (apart : r.peer ≠ k)
    (missing : c.findPeer k = none) : ((c.erase now p).file e r).2.findPeer k = none := by
  refine Option.eq_none_iff_forall_ne_some.mpr fun x entry => ?_
  rcases Index.lookup_insert_eq_some.mp entry with ⟨new, _⟩ | ⟨_, old⟩
  · exact apart new.symm
  · have found := (Index.lookup_erase_eq_some.mp old).2
    rw [findPeer] at missing
    rw [missing] at found
    cases found

/-- Finding the sender of a message from elsewhere. -/
theorem sender_elsewhere (assigned : Assigned A b.scontacts)
    (elsewhere : ¬ (smsg.ip = remote.ip ∧ smsg.port = remote.port))
    (found : b.sender e smsg = some (p, d)) :
    (Unmet remote b.scontacts → Unmet remote d.scontacts) ∧
      ∀ k, Met remote k b.scontacts → Met remote k d.scontacts ∨
        (d.scontacts.findPeer k = none ∧ (d.scontacts.info p).peer ≠ k) := by
  rcases sender_cases found with ⟨_, rfl⟩ | ⟨_, _, rfl⟩ | ⟨_, _, _, rfl⟩ |
    ⟨_, _, _, _, rfl, rfl⟩
  · exact ⟨fun unmet => unmet, fun _ => .inl⟩
  · split
    case isTrue own =>
      exact ⟨fun unmet => unmet.updateSocket _ _ _, fun _ met => .inl (met.updateSocket _ _ _)⟩
    case isFalse shared => exact ⟨fun unmet => unmet, fun _ => .inl⟩
  · exact ⟨fun unmet => unmet, fun _ => .inl⟩
  · refine ⟨fun unmet => unmet.enter_other (r := b.newcomer smsg) assigned.sound elsewhere e,
      fun k met => ?_⟩
    refine (met.enter (r := b.newcomer smsg) assigned rfl elsewhere e).imp_right fun missing => ?_
    refine ⟨missing, ?_⟩
    rw [info_file_self]
    exact (Int.ne_of_lt (Int.lt_add_one_of_le met.issued)).symm

/-- Processing a message from elsewhere does not change who the remote instance is,
unless its contact is evicted. -/
theorem processSMsg_elsewhere (assigned : Assigned A b.scontacts)
    (other : smsg.error = true ∨ ¬ (smsg.ip = remote.ip ∧ smsg.port = remote.port))
    (call : b.processSMsg env smsg = some (peer, b', actions)) :
    (Unmet remote b.scontacts → Unmet remote b'.scontacts) ∧
      ∀ k, Met remote k b.scontacts → Met remote k b'.scontacts ∨
        b'.scontacts.findPeer k = none := by
  rcases processSMsg_cases call with ⟨_, _, rfl, _⟩ | ⟨_, _, _, rfl, _⟩ |
    ⟨data, _, p, d, found, handled⟩
  · unfold processError
    split
    case h_1 q held =>
      exact ⟨fun unmet => unmet.updateSocket _ _ _,
        fun _ met => .inl ((met.updateSocket _ _ _).touch _ _)⟩
    case h_2 unheld => exact ⟨fun unmet => unmet, fun _ => .inl⟩
  · exact ⟨fun unmet => unmet, fun _ => .inl⟩
  · have elsewhere := other.resolve_left (by simp [data])
    obtain ⟨unmet, met⟩ := sender_elsewhere assigned elsewhere found
    obtain ⟨changes, _⟩ := sender_changes (fun _ _ _ => True) assigned.sound trivial
      (fun _ => trivial) found
    have sound : IndexesSound (d.touch env.lookup.now p).scontacts
        (d.touch env.lookup.now p).scontacts.heap.live :=
      assigned.sound.changes (changes.tail (.stamp _ _ _))
    refine ⟨fun before => ?_, fun k before => (met k before).imp (fun after => ?_)
      fun missing => ?_⟩
    · exact handle_keeps (I := Unmet remote) (fun _ _ _ unmet => unmet)
        (fun _ _ _ _ _ same _ unmet => unmet.refile same _ _) sound rfl handled (unmet before)
    · exact handle_keeps (I := Met remote k) (fun _ _ _ met => met.touch _ _)
        (fun _ _ _ _ _ same _ met => met.refile same _ _) sound rfl handled (after.touch _ _)
    · exact handle_keeps (I := fun c => c.findPeer k = none) (fun _ _ _ missing => missing)
        (fun _ _ _ _ _ _ own missing' => missing_replace (own ▸ missing.2) missing') sound rfl
        handled missing.1

/-- The sender of a message of the remote instance that leads to it, or to nobody. -/
theorem sender_remote (assigned : Assigned A b.scontacts) (finds : b.FindsRemote remote smsg)
    (found : b.sender e smsg = some (p, d)) :
    (Unmet remote b.scontacts → Met remote (d.scontacts.info p).peer d.scontacts) ∧
      ∀ k, Met remote k b.scontacts →
        (d.scontacts.info p).peer = k ∧ Met remote k d.scontacts := by
  unfold FindsRemote contactOf at finds
  rcases sender_cases found with ⟨held, rfl⟩ | ⟨unheld, addressed, rfl⟩ |
    ⟨unheld, missing, named, rfl⟩ | ⟨unheld, missing, unnamed, _, rfl, rfl⟩
  · rw [held] at finds
    exact ⟨fun unmet => absurd finds (unmet p), fun k met => ⟨met.own p finds, met⟩⟩
  · rw [unheld, addressed] at finds
    refine ⟨fun unmet => absurd finds (unmet p), fun k met => ?_⟩
    split
    case isTrue own =>
      exact ⟨(updateSocket_peer e p smsg.socket).trans (met.own p finds),
        met.updateSocket e p smsg.socket⟩
    case isFalse shared => exact ⟨met.own p finds, met⟩
  · rw [unheld, missing, named] at finds
    exact ⟨fun unmet => absurd finds (unmet p), fun k met => ⟨met.own p finds, met⟩⟩
  · rw [unheld, missing, unnamed] at finds
    refine ⟨fun unmet => ?_, fun k met => ?_⟩
    · rw [info_file_self]
      exact unmet.enter (r := b.newcomer smsg) assigned.sound finds rfl e
    · -- the contact with the address would have been found
      rw [finds.1, finds.2] at missing
      exact absurd missing met.found

/-- Processing a message of the remote instance that leads to it makes its contact,
or finds it. -/
theorem processSMsg_remote (assigned : Assigned A b.scontacts) (data : smsg.error = false)
    (other : ¬ b.isSelf smsg) (finds : b.FindsRemote remote smsg)
    (given : b.senderId env.lookup smsg = some id)
    (call : b.processSMsg env smsg = some (peer, b', actions)) :
    (Unmet remote b.scontacts → Met remote id b'.scontacts) ∧
      ∀ k, Met remote k b.scontacts → id = k ∧ Met remote k b'.scontacts := by
  obtain ⟨p, d, found, handled⟩ := processSMsg_eq_some data other call
  have own : (d.scontacts.info p).peer = id := by
    rw [senderId, found] at given
    exact Option.some.inj given
  obtain ⟨unmet, met⟩ := sender_remote assigned finds found
  obtain ⟨changes, _⟩ := sender_changes (fun _ _ _ => True) assigned.sound trivial
    (fun _ => trivial) found
  have sound : IndexesSound (d.touch env.lookup.now p).scontacts
      (d.touch env.lookup.now p).scontacts.heap.live :=
    assigned.sound.changes (changes.tail (.stamp _ _ _))
  have after : ∀ k, Met remote k d.scontacts → Met remote k b'.scontacts := fun k before =>
    handle_keeps (I := Met remote k) (fun _ _ _ met => met.touch _ _)
      (fun _ _ _ _ _ same _ met => met.refile same _ _) sound rfl handled (before.touch _ _)
  rw [own] at unmet met
  refine ⟨fun before => after id (unmet before), fun k before => ?_⟩
  exact ⟨(met k before).1, after k (met k before).2⟩

end SBus

namespace Peering

open SContacts

variable {s t : Peering} {remote : Remote} {bus : SBus} {ids : List SBusPeer} {event : Event}

/-- Until its contact is evicted, the remote instance was not met, or its messages
were all given the id its address belongs to. -/
structure OneContact (remote : Remote) (s : Peering) : Prop where
  assigned : ∃ A, Assigned A s.bus.scontacts
  met : s.evicted = false → (s.given = [] ∧ Unmet remote s.bus.scontacts) ∨
    ∃ k ∈ s.given, (∀ x ∈ s.given, x = k) ∧ Met remote k s.bus.scontacts

theorem OneContact.recognizes (one : s.OneContact remote) : s.Recognizes remote := by
  intro kept
  obtain ⟨A, assigned⟩ := one.assigned
  rcases one.met kept with ⟨nobody, _⟩ | ⟨k, _, all, met⟩
  · simp [nobody]
  · refine ⟨fun x memx y memy => (all x memx).trans (all y memy).symm, fun x mem => ?_⟩
    rw [all x mem]
    exact (met.storedAddress_eq assigned).2

theorem oneContact_start (serverIP : IP) (serverPort : Port) (mcsock : SocketType) :
    (start serverIP serverPort mcsock).OneContact remote where
  assigned := ⟨_, assigned_empty⟩
  met _ := .inl ⟨rfl, unmet_empty⟩

/-- It is enough that the first message makes the contact and that what comes later
finds it, or evicts it. -/
theorem OneContact.advance (one : s.OneContact remote)
    (assigned : ∃ A, Assigned A bus.scontacts)
    (goes : s.evicted = false →
      (Unmet remote s.bus.scontacts → (ids = [] ∧ Unmet remote bus.scontacts) ∨
        ∃ k, ids = [k] ∧ Met remote k bus.scontacts) ∧
      ∀ k, Met remote k s.bus.scontacts → (∀ x ∈ ids, x = k) ∧
        (Met remote k bus.scontacts ∨ bus.scontacts.findPeer k = none)) :
    (s.advance bus ids).OneContact remote where
  assigned := assigned
  met kept := by
    obtain ⟨before, present⟩ := (Bool.or_eq_false_iff).mp kept
    rw [List.any_eq_false] at present
    obtain ⟨first, later⟩ := goes before
    rcases one.met before with ⟨nobody, unmet⟩ | ⟨k, mem, all, met⟩
    · rcases first unmet with ⟨rfl, still⟩ | ⟨k, rfl, met⟩
      · exact .inl ⟨by simp [Peering.advance, nobody], still⟩
      · exact .inr ⟨k, by simp [Peering.advance], by simp [Peering.advance, nobody], met⟩
    · obtain ⟨same, met' | gone⟩ := later k met
      · refine .inr ⟨k, List.mem_append_left _ mem, fun x hx => ?_, met'⟩
        exact (List.mem_append.mp hx).elim (all x) (same x)
      · exact absurd (decide_eq_true gone) (present k mem)

theorem OneContact.step (one : s.OneContact remote) (finds : s.Finds remote event)
    (taken : s.step remote event = some t) : t.OneContact remote := by
  obtain ⟨A, assigned⟩ := one.assigned
  cases event with
  | setName name =>
      obtain rfl := Option.some.inj taken
      exact ⟨one.assigned, one.met⟩
  | send env msgtag peer msg =>
      obtain rfl := Option.some.inj taken
      obtain ⟨changes, _⟩ := SBus.send_changes (b := s.bus) (fun _ _ _ => True)
        (fun _ _ _ _ => trivial) rfl
      obtain ⟨_, A', assigned', _⟩ := assigned.changes changes
      refine one.advance ⟨A', assigned'⟩ fun _ => ⟨fun unmet => .inl ⟨rfl, ?_⟩, fun k met =>
        ⟨by simp, .inl ?_⟩⟩
      · exact SBus.send_keeps (I := Unmet remote) (fun _ _ _ unmet => unmet)
          (fun _ _ _ _ _ same _ unmet => unmet.refile same _ _) assigned.sound rfl unmet
      · exact SBus.send_keeps (I := Met remote k) (fun _ _ _ met => met.touch _ _)
          (fun _ _ _ _ _ same _ met => met.refile same _ _) assigned.sound rfl met
  | remote env smsg =>
      obtain ⟨⟨data, other, _, _⟩, taken⟩ := Option.ite_none_right_eq_some.mp taken
      obtain ⟨id, given, taken⟩ := Option.bind_eq_some_iff.mp taken
      obtain ⟨⟨peer, b, actions⟩, processed, taken⟩ := Option.bind_eq_some_iff.mp taken
      obtain rfl := Option.some.inj taken
      obtain ⟨changes, _⟩ := SBus.processSMsg_any_changes assigned.sound processed
      obtain ⟨_, A', assigned', _⟩ := assigned.changes changes
      refine one.advance ⟨A', assigned'⟩ fun kept => ?_
      obtain ⟨first, later⟩ := SBus.processSMsg_remote assigned data other (finds kept) given
        processed
      refine ⟨fun unmet => .inr ⟨id, rfl, first unmet⟩, fun k met => ?_⟩
      obtain ⟨rfl, met'⟩ := later k met
      exact ⟨by simp, .inl met'⟩
  | other env smsg =>
      obtain ⟨elsewhere, taken⟩ := Option.ite_none_right_eq_some.mp taken
      obtain ⟨⟨peer, b, actions⟩, processed, rfl⟩ := Option.map_eq_some_iff.mp taken
      obtain ⟨changes, _⟩ := SBus.processSMsg_any_changes assigned.sound processed
      obtain ⟨_, A', assigned', _⟩ := assigned.changes changes
      obtain ⟨unmet, met⟩ := SBus.processSMsg_elsewhere assigned elsewhere processed
      exact one.advance ⟨A', assigned'⟩ fun _ =>
        ⟨fun before => .inl ⟨rfl, unmet before⟩, fun k before => ⟨by simp, met k before⟩⟩

/-- As long as each of its messages leads to a contact with the address it listens
on, or to none and shows that address, the remote instance is one contact with that
address until the contact is evicted. -/
theorem remote_recognized (remote : Remote) (serverIP : IP) (serverPort : Port)
    (mcsock : SocketType) (events : List Event)
    (finds : EachStep (Det (step remote)) (Finds remote) (start serverIP serverPort mcsock)
      events) :
    Always (Det (step remote)) (Recognizes remote) (start serverIP serverPort mcsock) events :=
  .of_invariant (oneContact_start serverIP serverPort mcsock) finds
    (fun _ _ _ one finds taken => one.step finds taken) fun _ => OneContact.recognizes

/-- It is heard over multicast, written to, and answers with a new name on that
connection, where its frames show the port it listens on. -/
theorem remote_recognized_answering :
    Always (Det (step ⟨2, 20, by decide⟩)) (Recognizes ⟨2, 20, by decide⟩) (start 1 10 4)
      [.remote ⟨⟨10, 0, []⟩, ⟨10, 1, []⟩, ⟨⟨10, 2, []⟩, -1, 0⟩⟩ ⟨7, 2, 20, 4, [65], false⟩,
       .send ⟨⟨11, 2, []⟩, 5, 1⟩ 7 1 [66],
       .remote ⟨⟨12, 3, []⟩, ⟨12, 4, []⟩, ⟨⟨12, 5, []⟩, -1, 0⟩⟩ ⟨-1, 2, 20, 5, [97], false⟩] :=
  remote_recognized ⟨2, 20, by decide⟩ 1 10 4 _ (by decide +kernel)

end Peering

end LibSBus
