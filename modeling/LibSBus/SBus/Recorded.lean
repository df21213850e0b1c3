import LibSBus.SBus.Descriptors
import LibSBus.SContacts.Sockets

/-!
When a descriptor is good for what the contacts table remembers it for. The
invariant is that each contact that holds a descriptor has that connection
recorded which the descriptor stands for to the application, given what is in
its queue. A send needs that this is the connection the descriptor is open on,
and that is so when no error is queued for it.
-/

namespace LibSBus

open Lib

namespace SContacts

variable {L L' : SBusPeer → SocketType → Prop} {c : SContacts} {e : CallEnv} {p : Ptr}
  {r : SPeerInfo}

/-- The maps are in order, and each contact that holds a descriptor is linked to it. -/
structure Linked (L : SBusPeer → SocketType → Prop) (c : SContacts) : Prop where
  ok : Consistent c
  addressed : Addressed c
  filed : SocketsFiled c
  links : ∀ p ∈ c.contacts, 0 ≤ (c.info p).socket → L (c.info p).peer (c.info p).socket

theorem linked_empty : Linked L empty where
  ok := consistent_empty
  addressed := addressed_empty
  filed := socketsFiled_empty
  links p contact := by simp [contacts, empty] at contact

theorem Linked.mono (linked : Linked L c)
    (keep : ∀ x ∈ c.contacts, 0 ≤ (c.info x).socket → L (c.info x).peer (c.info x).socket →
      L' (c.info x).peer (c.info x).socket) : Linked L' c :=
  ⟨linked.ok, linked.addressed, linked.filed,
    fun x contact holds => keep x contact holds (linked.links x contact holds)⟩

theorem Linked.touch (linked : Linked L c) (now : Int) (p : Ptr) : Linked L (c.touch now p) where
  ok := linked.ok.touch now p
  addressed := linked.addressed
  filed := linked.filed
  links := linked.links

/-- A contact is filed again, with a socket that no other contact holds. -/
theorem Linked.replace (linked : Linked L c) (contact : p ∈ c.contacts)
    (same : SameContact r (c.info p))
    (others : 0 ≤ r.socket → ∀ x ∈ c.contacts, x ≠ p → (c.info x).socket ≠ r.socket)
    (new : 0 ≤ r.socket → L' r.peer r.socket)
    (keep : ∀ x ∈ c.contacts, x ≠ p → 0 ≤ (c.info x).socket →
      L (c.info x).peer (c.info x).socket → L' (c.info x).peer (c.info x).socket)
    (now : Int) (e : CallEnv) : Linked L' ((c.erase now p).file e r).2 where
  ok := linked.ok.replace contact same.1 now e
  addressed := linked.addressed.replace contact same now e
  filed := linked.filed.replace contact same.1 others now e
  links x := by
    rw [contacts_replace contact same.1]
    rintro (rfl | ⟨old, other⟩)
    · rw [info_file_self]
      exact new
    · have left : x ∈ (c.erase now p).heap.live := Finset.mem_erase.mpr ⟨other, old.1⟩
      rw [info_file_of_live left]
      exact fun holds => keep x old other holds (linked.links x old holds)

theorem Linked.updateName (linked : Linked L c) (contact : p ∈ c.contacts) (e : CallEnv)
    (name : CString) : Linked L (c.updateName e p name).2 :=
  linked.replace (r := { c.info p with name := name }) contact ⟨rfl, rfl, rfl⟩
    (fun holds _ old other same => other (linked.filed.unique old contact (same ▸ holds) same))
    (linked.links p contact) (fun _ _ _ _ => id) e.now e

theorem Linked.updateSocket {socket : SocketType} (linked : Linked L c) (contact : p ∈ c.contacts)
    (e : CallEnv) (unheld : c.Unheld socket) (new : 0 ≤ socket → L' (c.info p).peer socket)
    (keep : ∀ x ∈ c.contacts, x ≠ p → 0 ≤ (c.info x).socket →
      L (c.info x).peer (c.info x).socket → L' (c.info x).peer (c.info x).socket) :
    Linked L' (c.updateSocket e p socket).2 :=
  linked.replace (r := { c.info p with socket := socket, name := e.stale }) contact
    ⟨rfl, rfl, rfl⟩ (fun valid x hx _ => unheld valid x hx) new keep e.now e

theorem Linked.add_new (linked : Linked L c) (own : r.peer = c.lastPeerId + 1)
    (missing : c.findIpPort r.ip r.port = none) (unheld : c.Unheld r.socket)
    (new : 0 ≤ r.socket → L' r.peer r.socket)
    (keep : ∀ x ∈ c.contacts, 0 ≤ (c.info x).socket →
      L (c.info x).peer (c.info x).socket → L' (c.info x).peer (c.info x).socket)
    (e : CallEnv) : Linked L' ((c.doCleanUp e.now).bump.file e r).2 where
  ok := linked.ok.add_new own e
  addressed := linked.addressed.add_new linked.ok own missing e
  filed := linked.filed.add_new linked.ok own unheld e
  links x := by
    have removed := removed_bump linked.ok.sound e.now
    have sub := linked.ok.victims_subset e.now
    rw [contacts_file (linked.ok.next_id_free own)]
    rintro (rfl | contact)
    · rw [info_file_self]
      exact new
    · rw [info_file_of_live contact.1, info, removed.cell]
      rw [removed.contacts_eq sub] at contact
      exact fun holds => keep x contact.1 holds (linked.links x contact.1 holds)

/-- The contact found under an id has that id. -/
theorem Linked.findPeer (linked : Linked L c) {peer : SBusPeer}
    (found : c.findPeer peer = some p) : p ∈ c.contacts ∧ (c.info p).peer = peer :=
  linked.ok.sound.peers peer p found

end SContacts

namespace SBus

open SContacts

variable {L L' : SBusPeer → SocketType → Prop} {b d : SBus} {e : CallEnv} {smsg : SMsg} {p : Ptr}

/-- The record a message's sender has, apart from its name, is the record of a
contact, under the id `processSMsg` goes on with; and where the pointer is good,
that contact is at it. -/
structure Sender (b d : SBus) (e : CallEnv) (smsg : SMsg) (p q : Ptr) : Prop where
  contact : q ∈ d.scontacts.contacts
  peer : (d.scontacts.info q).peer = (d.scontacts.info p).peer
  ip : (d.scontacts.info q).ip = (b.senderRecord smsg).ip
  socket : (d.scontacts.info q).socket = (b.senderRecord smsg).socket
  good : b.KeepsPointer e smsg → p = q

/-- A contact the message finds as it is. -/
theorem Sender.known (contact : p ∈ b.scontacts.contacts)
    (record : b.senderRecord smsg = b.scontacts.info p) : Sender b b e smsg p p :=
  ⟨contact, rfl, record ▸ rfl, record ▸ rfl, fun _ => rfl⟩

/-- The contact with the address of the message gets its socket. The old pointer
shows the new record only if this was put in the place of the old one. -/
theorem Sender.moved (contact : p ∈ b.scontacts.contacts)
    (unheld : b.scontacts.findFromSocket smsg.socket = none)
    (addressed : b.scontacts.findIpPort smsg.ip smsg.port = some p)
    (own : smsg.socket ≠ b.mcsock) :
    Sender b { b with scontacts := (b.scontacts.updateSocket e p smsg.socket).2 } e smsg p
      (b.scontacts.updateSocket e p smsg.socket).1 := by
  have record : b.senderRecord smsg = { b.scontacts.info p with socket := smsg.socket } := by
    simp [senderRecord, unheld, addressed, own]
  have shown : (b.scontacts.updateSocket e p smsg.socket).2.info
      (b.scontacts.updateSocket e p smsg.socket).1 =
      { b.scontacts.info p with socket := smsg.socket, name := e.stale } := info_file_self
  constructor
  case contact => exact updateSocket_contact contact e _
  case peer => rw [updateSocket_peer, shown]
  case ip => rw [record, shown]
  case socket => rw [record, shown]
  case good => exact fun good => (good own unheld p addressed).symm

/-- A contact added for a message is linked to the socket of the message, unless
this is the multicast socket. -/
theorem newcomer_linked (linked : Linked L b.scontacts)
    (unheld : b.scontacts.findFromSocket smsg.socket = none)
    (missing : b.scontacts.findIpPort smsg.ip smsg.port = none)
    (new : smsg.socket ≠ b.mcsock → L' (b.scontacts.lastPeerId + 1) smsg.socket)
    (keep : ∀ x ∈ b.scontacts.contacts,
      (b.scontacts.info x).peer ≠ b.scontacts.lastPeerId + 1 → 0 ≤ (b.scontacts.info x).socket →
      L (b.scontacts.info x).peer (b.scontacts.info x).socket →
      L' (b.scontacts.info x).peer (b.scontacts.info x).socket) :
    Linked L' ((b.scontacts.doCleanUp e.now).bump.file e (b.newcomer smsg)).2 := by
  have unheld' : b.scontacts.Unheld (b.newcomer smsg).socket := by
    unfold newcomer recordedSocket
    split
    case isTrue own => exact linked.filed.unheld unheld
    case isFalse shared => exact fun valid => absurd valid (by decide : ¬ (0 : Int) ≤ -1)
  have new' : 0 ≤ (b.newcomer smsg).socket →
      L' (b.newcomer smsg).peer (b.newcomer smsg).socket := by
    unfold newcomer recordedSocket
    split
    case isTrue own => exact fun _ => new own
    case isFalse shared => exact fun valid => absurd valid (by decide : ¬ (0 : Int) ≤ -1)
  refine linked.add_new (r := b.newcomer smsg) rfl missing unheld' new'
    (fun x contact => keep x contact fun same => ?_) e
  have bound := (linked.ok.ids _ x contact.2).2
  rw [same] at bound
  exact absurd bound (Int.not_le.mpr (Int.lt_succ _))

theorem sender_linked (linked : Linked L b.scontacts) (data : smsg.error = false)
    (other : ¬ b.isSelf smsg)
    (new : ∀ peer, b.settles smsg = some peer → L' peer smsg.socket)
    (keep : ∀ x ∈ b.scontacts.contacts, b.settles smsg ≠ some (b.scontacts.info x).peer →
      0 ≤ (b.scontacts.info x).socket → L (b.scontacts.info x).peer (b.scontacts.info x).socket →
      L' (b.scontacts.info x).peer (b.scontacts.info x).socket)
    (found : b.sender e smsg = some (p, d)) :
    Linked L' d.scontacts ∧ ∃ q, Sender b d e smsg p q := by
  have unsettled (none_ : b.settles smsg = none) : Linked L' b.scontacts :=
    linked.mono fun x contact => keep x contact (by simp [none_])
  rcases sender_cases found with ⟨held, same⟩ | ⟨unheld, addressed, same⟩ |
    ⟨unheld, missing, named, same⟩ | ⟨unheld, missing, unnamed, _, rfl, same⟩
  · subst d
    have contact := (linked.ok.sound.sockets _ p held).1
    exact ⟨unsettled (by simp [settles, held]), p,
      .known contact (by simp [senderRecord, held])⟩
  · have contact := (linked.ok.sound.addrs _ p addressed).1
    by_cases own : smsg.socket ≠ b.mcsock
    · rw [if_pos own] at same
      subst d
      have settles : b.settles smsg = some (b.scontacts.info p).peer := by
        simp [settles, data, other, own, unheld, addressed]
      refine ⟨?_, _, .moved contact unheld addressed own⟩
      refine linked.updateSocket contact e (linked.filed.unheld unheld)
        (fun _ => new _ settles) fun x hx apart => keep x hx ?_
      rw [settles]
      exact fun same => apart (peer_injOn hx contact (Option.some.inj same).symm)
    · rw [if_neg own] at same
      subst d
      have record : b.senderRecord smsg = b.scontacts.info p := by
        simp only [senderRecord, unheld, addressed, if_neg own]
      exact ⟨unsettled (by simp [settles, not_not.mp own]), p, .known contact record⟩
  · subst d
    have contact := (linked.ok.sound.names _ p named).1
    exact ⟨unsettled (by simp [settles, missing, named]), p,
      .known contact (by simp [senderRecord, unheld, missing, named])⟩
  · subst d
    have record : b.senderRecord smsg = b.newcomer smsg := by
      simp [senderRecord, unheld, missing, unnamed]
    have settles : b.settles smsg =
        if smsg.socket = b.mcsock then none else some (b.scontacts.lastPeerId + 1) := by
      simp [settles, data, other, unheld, missing, unnamed]
    have contact : ((b.scontacts.doCleanUp e.now).bump.file e (b.newcomer smsg)).1 ∈
        ((b.scontacts.doCleanUp e.now).bump.file e (b.newcomer smsg)).2.contacts := by
      rw [contacts_file (linked.ok.next_id_free rfl)]
      exact Set.mem_insert _ _
    refine ⟨newcomer_linked linked unheld missing (fun own => new _ (settles.trans (if_neg own)))
      fun x hx apart => keep x hx ?_, _, contact, rfl, by rw [record, info_file_self],
      by rw [record, info_file_self], fun _ => rfl⟩
    rw [settles]
    split
    case isTrue shared => exact fun same => by cases same
    case isFalse own => exact fun same => apart (Option.some.inj same).symm

end SBus

namespace Process

open SContacts

variable {s t : Process} {fd : SocketType} {established : Bool} {peer : SBusPeer}
  {actions : List Action} {q : Queued} {inq rest : List Queued} {k : Nat}

theorem notices_append (inq inq' : List Queued) :
    notices (inq ++ inq') = notices inq ++ notices inq' :=
  List.filterMap_append

theorem NoError.quiet (noError : NoError inq fd) : Quiet (notices inq) fd := by
  intro notice mem closing
  obtain ⟨q, queued, about⟩ := List.mem_filterMap.mp mem
  obtain ⟨k, _, rfl⟩ := Option.map_eq_some_iff.mp about
  exact noError q queued closing

/-- The connection recorded for a contact is the one its descriptor stands for. -/
def Links (s : Process) (peer : SBusPeer) (fd : SocketType) : Prop :=
  ∃ k, s.recorded peer = some k ∧ standsFor s.opened (notices s.inq) fd = some k

/-- Contacts are linked to their descriptors, what is queued is in order, and
descriptors are open on established connections only. -/
structure Tracked (s : Process) : Prop where
  linked : Linked s.Links s.bus.scontacts
  order : InOrder s.opened (notices s.inq)
  queued : ∀ q ∈ s.inq,
    (q.conn = none ∧ q.smsg.error = false ∧ q.smsg.socket = s.bus.mcsock) ∨
      (∃ k, q.conn = some k) ∧ 0 ≤ q.smsg.socket
  valid : ∀ fd k, s.opened fd = some k → 0 ≤ fd ∧ s.established k = true
  uses : s.UsesRecorded

theorem tracked_start {serverIP : IP} {serverPort : Port} {mcsock : SocketType} :
    (start serverIP serverPort mcsock).Tracked where
  linked := linked_empty
  order := trivial
  queued q mem := by cases mem
  valid fd k opened := by cases opened
  uses use mem := by cases mem

/-- One more message is in the queue, descriptors may have been closed, and every
descriptor stands for what it stood for. -/
theorem Tracked.enqueue {opened : SocketType → Option Nat} (tracked : s.Tracked)
    (same : standsFor opened (notices (s.inq ++ [q])) = standsFor s.opened (notices s.inq))
    (order : InOrder opened (notices (s.inq ++ [q])))
    (proper : (q.conn = none ∧ q.smsg.error = false ∧ q.smsg.socket = s.bus.mcsock) ∨
      (∃ k, q.conn = some k) ∧ 0 ≤ q.smsg.socket)
    (closes : ∀ fd k, opened fd = some k → s.opened fd = some k) :
    Tracked { s with opened, inq := s.inq ++ [q] } where
  linked := tracked.linked.mono fun x _ _ linked => by
    unfold Links
    rwa [same]
  order := order
  queued other mem := by
    rcases List.mem_append.mp mem with old | new
    · exact tracked.queued other old
    · exact List.mem_singleton.mp new ▸ proper
  valid x k found := tracked.valid x k (closes x k found)
  uses := tracked.uses

theorem Tracked.fail (tracked : s.Tracked) (call : s.step (.fail fd) = some t) : t.Tracked := by
  obtain ⟨k, opened, call⟩ := Option.bind_eq_some_iff.mp call
  obtain rfl := Option.some.inj call
  apply tracked.enqueue
  · rw [notices_append]
    exact standsFor_close opened
  · rw [notices_append]
    exact tracked.order.close opened
  · exact .inr ⟨⟨k, rfl⟩, (tracked.valid fd k opened).1⟩
  · intro x k' found
    by_cases here : x = fd
    · simp [here] at found
    · rwa [Function.update_of_ne here] at found

theorem Tracked.queue {smsg : SMsg} (tracked : s.Tracked)
    (call : s.step (.queue smsg) = some t) : t.Tracked := by
  obtain ⟨data, call⟩ := Option.ite_none_left_eq_some.mp call
  rw [Bool.not_eq_true] at data
  by_cases shared : smsg.socket = s.bus.mcsock
  · rw [if_pos shared] at call
    obtain rfl := Option.some.inj call
    have same : notices (s.inq ++ [⟨smsg, none⟩]) = notices s.inq := by
      rw [notices_append]
      exact List.append_nil _
    apply tracked.enqueue
    · rw [same]
    · rw [same]
      exact tracked.order
    · exact .inl ⟨rfl, data, shared⟩
    · exact fun _ _ found => found
  · rw [if_neg shared] at call
    obtain ⟨k, opened, call⟩ := Option.bind_eq_some_iff.mp call
    obtain rfl := Option.some.inj call
    apply tracked.enqueue
    · rw [notices_append]
      exact standsFor_queue opened smsg.error
    · rw [notices_append]
      exact tracked.order.queue opened smsg.error
    · exact .inr ⟨⟨k, rfl⟩, (tracked.valid _ k opened).1⟩
    · exact fun _ _ found => found

theorem opens_eq_some (call : s.opens fd established = some t) :
    0 ≤ fd ∧ s.opened fd = none ∧ t = s.opening fd established := by
  obtain ⟨⟨valid, closed, _⟩, call⟩ := Option.ite_none_right_eq_some.mp call
  exact ⟨valid, closed, (Option.some.inj call).symm⟩

/-- Opening a descriptor on an established connection keeps everything valid. -/
theorem Tracked.opening_valid (tracked : s.Tracked) (nonneg : 0 ≤ fd) :
    ∀ x k, (s.opening fd true).opened x = some k →
      0 ≤ x ∧ (s.opening fd true).established k = true := by
  intro x k found
  unfold opening at found ⊢
  dsimp only at found ⊢
  rw [Function.update_apply] at found ⊢
  split at found
  case isTrue here =>
    obtain rfl := Option.some.inj found
    exact ⟨here ▸ nonneg, if_pos rfl⟩
  case isFalse elsewhere =>
    obtain ⟨valid, up⟩ := tracked.valid x k found
    refine ⟨valid, ?_⟩
    split
    case isTrue same => rfl
    case isFalse other => exact up

theorem connected_opening (s : Process) (fd : SocketType) :
    (s.opening fd true).connected fd = some s.conns := by
  simp [connected, opening]

theorem Tracked.accept (tracked : s.Tracked) (call : s.step (.accept fd) = some t) :
    t.Tracked := by
  obtain ⟨nonneg, closed, rfl⟩ := opens_eq_some call
  refine ⟨tracked.linked.mono fun x _ _ linked => ?_, tracked.order.open closed _,
    tracked.queued, tracked.opening_valid nonneg, tracked.uses⟩
  obtain ⟨k, recorded, stands⟩ := linked
  exact ⟨k, recorded, standsFor_open closed _ stands⟩

theorem Tracked.touch (tracked : s.Tracked) (now : Int) (p : Ptr) :
    Tracked { s with bus := s.bus.touch now p } :=
  ⟨tracked.linked.touch now p, tracked.order, tracked.queued, tracked.valid, tracked.uses⟩

theorem Tracked.use {use : Use} (tracked : s.Tracked) (proper : use.Proper) :
    Tracked { s with uses := s.uses ++ [use] } := by
  refine ⟨tracked.linked, tracked.order, tracked.queued, tracked.valid, fun other mem => ?_⟩
  rcases List.mem_append.mp mem with old | new
  · exact tracked.uses other old
  · exact List.mem_singleton.mp new ▸ proper

/-- A write to a descriptor whose closing is not queued is on the connection
recorded for the contact. -/
theorem Tracked.wrote (tracked : s.Tracked) {p : Ptr} (contact : p ∈ s.bus.scontacts.contacts)
    (holds : 0 ≤ (s.bus.scontacts.info p).socket)
    (noError : NoError s.inq (s.bus.scontacts.info p).socket) :
    (Use.wrote (s.connected (s.bus.scontacts.info p).socket)
      (s.recorded (s.bus.scontacts.info p).peer)).Proper := by
  obtain ⟨k, recorded, stands⟩ := tracked.linked.links p contact holds
  rw [tracked.order.standsFor_eq noError.quiet] at stands
  have up : s.connected (s.bus.scontacts.info p).socket = some k := by
    rw [connected, stands]
    simp [(tracked.valid _ k stands).2]
  rw [up, recorded]
  exact ⟨Option.some_ne_none k, rfl⟩

/-- A connection made to send to a contact is recorded for it. -/
theorem Tracked.connects {p : Ptr} (tracked : s.Tracked)
    (contact : p ∈ s.bus.scontacts.contacts) (noError : NoError s.inq fd) (nonneg : 0 ≤ fd)
    (closed : s.opened fd = none) (e : CallEnv) :
    Tracked { s.opening fd true with
      bus := { s.bus with scontacts := (s.bus.scontacts.updateSocket e p fd).2 }
      recorded := Function.update s.recorded (s.bus.scontacts.info p).peer (some s.conns) } := by
  have order := tracked.order.open closed s.conns
  have unheld : s.bus.scontacts.Unheld fd := by
    rintro _ x old rfl
    obtain ⟨k, _, stands⟩ := tracked.linked.links x old nonneg
    rw [tracked.order.standsFor_eq noError.quiet, closed] at stands
    cases stands
  refine ⟨tracked.linked.updateSocket contact e unheld (fun _ => ?_) (fun x old other holds => ?_),
    order, tracked.queued, tracked.opening_valid nonneg, tracked.uses⟩
  · refine ⟨s.conns, Function.update_self _ _ _, ?_⟩
    exact (order.standsFor_eq noError.quiet).trans (Function.update_self _ _ _)
  · rintro ⟨k, recorded, stands⟩
    have apart : (s.bus.scontacts.info x).peer ≠ (s.bus.scontacts.info p).peer :=
      fun same => other (peer_injOn old contact same)
    exact ⟨k, (Function.update_of_ne apart _ _).trans recorded, standsFor_open closed _ stands⟩

/-- A careful send to a peer writes on the connection recorded for it. -/
theorem Tracked.sends {env : SendEnv} {msgtag : Int} {msg : CString} {res : Int} {b : SBus}
    (tracked : s.Tracked)
    (careful : ∀ p ∈ s.bus.scontacts.findPeer peer,
      Careful s.inq env established (s.bus.scontacts.info p))
    (sent : s.bus.send env msgtag peer msg = (res, b, actions))
    (call : actions.foldlM (perform peer established) { s with bus := b } = some t) :
    t.Tracked := by
  rcases SBus.send_cases _ _ _ sent with ⟨_, rfl, rfl⟩ | ⟨p, found, cases_⟩
  · obtain rfl := Option.some.inj call
    exact tracked
  obtain ⟨contact, rfl⟩ := tracked.linked.findPeer found
  have careful := careful p found
  have touched := tracked.touch env.call.now p
  unfold Careful at careful
  rcases cases_ with ⟨holds, rfl, rfl⟩ | ⟨shut, located, made, rfl, rfl⟩ |
    ⟨_, _, failed, rfl, rfl⟩ | ⟨_, _, rfl, rfl⟩
  · rw [if_pos holds] at careful
    obtain rfl := Option.some.inj call
    exact touched.use (tracked.wrote contact holds careful)
  · rw [if_neg (Int.not_le.mpr shut)] at careful
    obtain ⟨noError, rfl⟩ := careful located made
    rw [List.foldlM_cons] at call
    obtain ⟨u, connected, rest⟩ := Option.bind_eq_some_iff.mp call
    obtain rfl := Option.some.inj rest
    rw [perform, if_neg (Int.not_lt.mpr made)] at connected
    obtain ⟨u', opened, rfl⟩ := Option.map_eq_some_iff.mp connected
    obtain ⟨_, closed, rfl⟩ := opens_eq_some opened
    apply (touched.connects contact noError made closed env.call).use
    have recorded : Function.update s.recorded (s.bus.scontacts.info p).peer (some s.conns)
        (s.bus.scontacts.info p).peer = some s.conns := Function.update_self _ _ _
    exact ⟨(connected_opening s env.connect).symm ▸ Option.some_ne_none _,
      (connected_opening s env.connect).trans recorded.symm⟩
  · have idle : perform (s.bus.scontacts.info p).peer established
        { s with bus := s.bus.touch env.call.now p }
        (.connect (s.bus.scontacts.info p).ip (s.bus.scontacts.info p).port env.connect) =
        some { s with bus := s.bus.touch env.call.now p } := if_pos failed
    rw [List.foldlM_cons, idle] at call
    obtain rfl := Option.some.inj call
    exact touched
  · split at call <;>
      · obtain rfl := Option.some.inj call
        exact touched

theorem careful_congr {env : SendEnv} {r r' : SPeerInfo} (ip : r.ip = r'.ip)
    (socket : r.socket = r'.socket) (careful : Careful inq env established r') :
    Careful inq env established r := by
  unfold Careful at careful ⊢
  rwa [ip, socket]

theorem notices_loss {smsg : SMsg} (next : s.inq = ⟨smsg, some k⟩ :: rest) :
    notices s.inq = ⟨smsg.socket, k, smsg.error⟩ :: notices rest := by
  rw [next]
  rfl

/-- What another descriptor stands for does not change when the error is read. -/
theorem Links.other {smsg : SMsg} (next : s.inq = ⟨smsg, some k⟩ :: rest)
    (apart : fd ≠ smsg.socket) (links : s.Links peer fd) :
    Links { s with inq := rest } peer fd := by
  obtain ⟨k', recorded, stands⟩ := links
  rw [notices_loss next, standsFor, if_neg apart.symm] at stands
  exact ⟨k', recorded, stands⟩

/-- The contact that holds the descriptor has the connection recorded that was lost. -/
theorem Links.lost {smsg : SMsg} (next : s.inq = ⟨smsg, some k⟩ :: rest)
    (links : s.Links peer smsg.socket) : some k = s.recorded peer := by
  obtain ⟨k', recorded, stands⟩ := links
  rw [notices_loss next, standsFor, if_pos rfl] at stands
  exact stands.trans recorded.symm

/-- Reading the error of a lost connection resets the contact that has this
connection recorded, if there is one. -/
theorem Tracked.lost {smsg : SMsg} (tracked : s.Tracked) (next : s.inq = ⟨smsg, some k⟩ :: rest)
    (lost : smsg.error = true) (e : CallEnv) :
    Tracked { s with
      bus := s.bus.processError e smsg
      inq := rest
      uses := s.uses ++ s.resets ⟨smsg, some k⟩ } := by
  obtain ⟨linked, order, queued, valid, uses⟩ := tracked
  have nonneg : 0 ≤ smsg.socket := by
    rcases queued _ (next ▸ List.mem_cons_self) with ⟨none_, _⟩ | ⟨_, nonneg⟩
    · cases none_
    · exact nonneg
  rw [notices_loss next] at order
  have queued' : ∀ q ∈ rest, (q.conn = none ∧ q.smsg.error = false ∧
      q.smsg.socket = s.bus.mcsock) ∨ (∃ k, q.conn = some k) ∧ 0 ≤ q.smsg.socket :=
    fun q mem => queued q (next ▸ List.mem_cons_of_mem _ mem)
  cases found : s.bus.scontacts.findFromSocket smsg.socket with
  | none =>
      have unheld := linked.filed.unheld found
      have same : s.bus.processError e smsg = s.bus := by rw [SBus.processError, found]
      have none_ : s.resets ⟨smsg, some k⟩ = [] := by simp [resets, found]
      rw [same, none_, List.append_nil]
      exact ⟨linked.mono fun x contact _ => Links.other next (unheld nonneg x contact), order.2,
        queued', valid, uses⟩
  | some p =>
      obtain ⟨contact, holds⟩ := linked.ok.sound.sockets _ p found
      have same : s.bus.processError e smsg = { s.bus with
          scontacts := (s.bus.scontacts.updateSocket e p invalidSocket).2.touch e.now
            (s.bus.scontacts.updateSocket e p invalidSocket).1 } := by
        rw [SBus.processError, found]
      have one : s.resets ⟨smsg, some k⟩ =
          [.reset (some k) (s.recorded (s.bus.scontacts.info p).peer)] := by
        simp [resets, lost, found]
      have proper : (Use.reset (some k) (s.recorded (s.bus.scontacts.info p).peer)).Proper := by
        have links := linked.links p contact (holds ▸ nonneg)
        rw [holds] at links
        exact links.lost next
      have reset : Linked (Links { s with inq := rest })
          (s.bus.scontacts.updateSocket e p invalidSocket).2 :=
        linked.updateSocket contact e (fun valid => absurd valid (by decide))
          (fun valid => absurd valid (by decide)) fun x old other held =>
            Links.other next fun shared => other (linked.filed.unique old contact held
              (shared.trans holds.symm))
      rw [same, one]
      exact Tracked.use (s := { s with
        bus := { s.bus with
          scontacts := (s.bus.scontacts.updateSocket e p invalidSocket).2.touch e.now
            (s.bus.scontacts.updateSocket e p invalidSocket).1 }
        inq := rest }) ⟨reset.touch _ _, order.2, queued', valid, uses⟩ proper

/-- Reading a message that reports no loss leaves the queue saying the same. -/
theorem Tracked.read (tracked : s.Tracked) (next : s.inq = q :: rest)
    (data : q.smsg.error = false) :
    standsFor s.opened (notices rest) = standsFor s.opened (notices s.inq) ∧
      InOrder s.opened (notices rest) ∧
      ∀ k, q.conn = some k → standsFor s.opened (notices rest) q.smsg.socket = some k := by
  have order := tracked.order
  rw [next] at order ⊢
  obtain ⟨smsg, conn⟩ := q
  cases conn with
  | none => exact ⟨rfl, order, fun k made => by cases made⟩
  | some k =>
      refine ⟨(order.read data).symm, order.2, fun k' made => ?_⟩
      obtain rfl := Option.some.inj made
      exact order.1 data

/-- After a message is read and before it is processed. -/
def reading (s : Process) (q : Queued) (rest : List Queued) : Process :=
  { s with inq := rest, recorded := s.recordedBy q }

theorem recordedBy_settled (settles : s.bus.settles q.smsg = some peer) :
    s.recordedBy q peer = q.conn := by
  rw [recordedBy, settles]
  exact Function.update_self _ _ _

theorem recordedBy_other (apart : s.bus.settles q.smsg ≠ some peer) :
    s.recordedBy q peer = s.recorded peer := by
  cases settles : s.bus.settles q.smsg with
  | none => rw [recordedBy, settles]
  | some settled =>
      have other : peer ≠ settled := by
        rintro rfl
        exact apart settles
      rw [recordedBy, settles]
      exact Function.update_of_ne other _ _

/-- Finding the sender of a message leaves the contacts linked to their
descriptors. -/
theorem Tracked.sender {e : CallEnv} {p : Ptr} {d : SBus} (tracked : s.Tracked)
    (next : s.inq = q :: rest) (data : q.smsg.error = false) (other : ¬ s.bus.isSelf q.smsg)
    (found : s.bus.sender e q.smsg = some (p, d)) :
    Linked (s.reading q rest).Links d.scontacts ∧ ∃ x, SBus.Sender s.bus d e q.smsg p x := by
  obtain ⟨same, _, about⟩ := tracked.read next data
  refine SBus.sender_linked tracked.linked data other (fun peer settles => ?_)
    (fun x contact apart holds => ?_) found
  · -- a message that sets a socket came on a connection
    rcases tracked.queued q (next ▸ List.mem_cons_self) with ⟨_, _, shared⟩ | ⟨⟨k, made⟩, _⟩
    · rw [SBus.settles, if_pos (.inr (.inr (.inl shared)))] at settles
      cases settles
    · exact ⟨k, (recordedBy_settled settles).trans made, about k made⟩
  · rintro ⟨k, recorded, stands⟩
    exact ⟨k, (recordedBy_other apart).trans recorded, same ▸ stands⟩

/-- Writing a name down through a good pointer keeps the links, and the contact
the reply goes to has the record of the sender. -/
theorem renamed_linked {L : SBusPeer → SocketType → Prop} {smsg : SMsg} {p x : Ptr} {b d : SBus}
    (env : StepEnv) (linked : Linked L d.scontacts)
    (sender : SBus.Sender b d env.lookup smsg p x)
    (good : smsg.msgtag = sbusManameis ∨ smsg.msgtag = sbusNametaken →
      b.KeepsPointer env.lookup smsg) :
    Linked L (d.renamed env.rename smsg p).scontacts ∧
      ∀ y ∈ (d.renamed env.rename smsg p).scontacts.findPeer (d.scontacts.info p).peer,
        ((d.renamed env.rename smsg p).scontacts.info y).ip = (b.senderRecord smsg).ip ∧
          ((d.renamed env.rename smsg p).scontacts.info y).socket =
            (b.senderRecord smsg).socket := by
  unfold SBus.renamed
  split
  case isTrue announces =>
    obtain rfl := sender.good (good announces)
    have filed : (d.scontacts.updateName env.rename p smsg.msg).2.findPeer
        (d.scontacts.info p).peer = some (d.scontacts.updateName env.rename p smsg.msg).1 :=
      findPeer_file
    have shown : (d.scontacts.updateName env.rename p smsg.msg).2.info
        (d.scontacts.updateName env.rename p smsg.msg).1 =
        { d.scontacts.info p with name := smsg.msg } := info_file_self
    refine ⟨linked.updateName sender.contact env.rename smsg.msg, fun y found => ?_⟩
    obtain rfl := Option.some.inj (filed.symm.trans found)
    rw [shown]
    exact ⟨sender.ip, sender.socket⟩
  case isFalse quiet =>
    refine ⟨linked, fun y found => ?_⟩
    obtain ⟨contact, own⟩ := linked.findPeer found
    obtain rfl := peer_injOn contact sender.contact (own.trans sender.peer.symm)
    exact ⟨sender.ip, sender.socket⟩

/-- A message from another bus is read: its sender is found, its name written
down, and the reply it asks for sent. -/
theorem Tracked.processes {env : StepEnv} {id : SBusPeer} {b : SBus} (tracked : s.Tracked)
    (next : s.inq = q :: rest) (data : q.smsg.error = false) (other : ¬ s.bus.isSelf q.smsg)
    (careful : s.bus.replyTag q.smsg ≠ none →
      Careful rest env.reply established (s.bus.senderRecord q.smsg))
    (good : q.smsg.msgtag = sbusManameis ∨ q.smsg.msgtag = sbusNametaken →
      s.bus.KeepsPointer env.lookup q.smsg)
    (processed : s.bus.processSMsg env q.smsg = some (id, b, actions))
    (call : actions.foldlM (perform ((s.bus.senderId env.lookup q.smsg).getD (-1)) established)
      { s.reading q rest with bus := b } = some t) : t.Tracked := by
  obtain ⟨p, d, found, handled⟩ := SBus.processSMsg_eq_some data other processed
  have peer_eq : (s.bus.senderId env.lookup q.smsg).getD (-1) = (d.scontacts.info p).peer := by
    rw [SBus.senderId, found]
    rfl
  rw [peer_eq] at call
  have live := tracked.linked.ok.sound.mono fun _ contact => contact.1
  have same := (SBus.sender_changes (fun _ _ _ => True) live trivial (fun _ => trivial) found).2
  obtain ⟨linked, x, sender⟩ := tracked.sender next data other found
  obtain ⟨linked', records⟩ := renamed_linked (d := d.touch env.lookup.now p)
    env (linked.touch env.lookup.now p)
    ⟨sender.contact, sender.peer, sender.ip, sender.socket, sender.good⟩ good
  have renamed_eq := (SBus.renamed_changes (d.touch env.lookup.now p) (fun _ _ _ => True)
    env.rename q.smsg p).2
  have mcsock_eq : ((d.touch env.lookup.now p).renamed env.rename q.smsg p).mcsock =
      s.bus.mcsock := by
    rw [renamed_eq, SBus.touch, same]
  have before : Tracked { s.reading q rest with
      bus := (d.touch env.lookup.now p).renamed env.rename q.smsg p } := by
    refine ⟨linked', (tracked.read next data).2.1, fun other mem => ?_, tracked.valid,
      tracked.uses⟩
    rw [mcsock_eq]
    exact tracked.queued other (next ▸ List.mem_cons_of_mem _ mem)
  rcases SBus.handle_cases handled with ⟨_, rfl, rfl⟩ | ⟨tag, res, replied, sent⟩
  · obtain rfl := Option.some.inj call
    exact before
  · have asked : s.bus.replyTag q.smsg ≠ none := by
      have name_eq : (d.touch env.lookup.now p).replyTag q.smsg = s.bus.replyTag q.smsg := by
        rw [SBus.replyTag, SBus.replyTag, SBus.touch, same]
      rw [← name_eq, replied]
      exact Option.some_ne_none tag
    exact before.sends (fun y known => careful_congr (records y known).1 (records y known).2
      (careful asked)) sent call

theorem Tracked.recv {env : StepEnv} (tracked : s.Tracked)
    (careful : s.TakenWithCare (.recv env established))
    (call : s.step (.recv env established) = some t) : t.Tracked := by
  unfold step at call
  unfold TakenWithCare at careful
  cases next : s.inq with
  | nil =>
      rw [next] at call
      cases call
  | cons q rest =>
      simp only [next] at call careful
      obtain ⟨⟨id, b, actions⟩, processed, call⟩ := Option.bind_eq_some_iff.mp call
      rcases SBus.processSMsg_cases processed with
        ⟨lost, _, rfl, rfl⟩ | ⟨data, own, _, rfl, rfl⟩ | ⟨data, other, _⟩
      · obtain ⟨smsg, conn⟩ := q
        cases conn with
        | none =>
            rcases tracked.queued _ (next ▸ List.mem_cons_self) with ⟨_, data, _⟩ | ⟨made, _⟩
            · exact absurd (data.symm.trans lost) Bool.noConfusion
            · obtain ⟨k, made⟩ := made
              cases made
        | some k =>
            have unsettled : s.recordedBy ⟨smsg, some k⟩ = s.recorded := by
              rw [recordedBy, SBus.settles, if_pos (.inl lost)]
            obtain rfl := Option.some.inj call
            rw [unsettled]
            exact tracked.lost next lost env.lookup
      · have quiet : s.resets q = [] := by simp [resets, data]
        have unsettled : s.recordedBy q = s.recorded := by
          rw [recordedBy, SBus.settles, if_pos (.inr (.inl own))]
        rw [quiet, unsettled, List.append_nil] at call
        obtain rfl := Option.some.inj call
        obtain ⟨same, order, _⟩ := tracked.read next data
        refine ⟨tracked.linked.mono fun x _ _ linked => ?_, order, fun other mem => ?_,
          tracked.valid, tracked.uses⟩
        · obtain ⟨k, recorded, stands⟩ := linked
          exact ⟨k, recorded, same ▸ stands⟩
        · exact tracked.queued other (next ▸ List.mem_cons_of_mem _ mem)
      · have quiet : s.resets q = [] := by simp [resets, data]
        obtain ⟨replies, good⟩ := careful data other
        rw [quiet, List.append_nil] at call
        exact tracked.processes next data other replies good processed call

theorem Tracked.step {event : Event} (tracked : s.Tracked) (careful : s.TakenWithCare event)
    (call : s.step event = some t) : t.Tracked := by
  cases event with
  | fail fd => exact tracked.fail call
  | accept fd => exact tracked.accept call
  | queue smsg => exact tracked.queue call
  | recv env established => exact tracked.recv careful call
  | send env established msgtag peer msg => exact tracked.sends careful rfl call

/-- In every run whose steps are taken with care, each write for a contact is on
the connection that is recorded for it, and each error resets only the contact
that has the lost connection recorded. -/
theorem uses_recorded (serverIP : IP) (serverPort : Port) (mcsock : SocketType)
    (events : List Event)
    (careful : EachStep (Det step) TakenWithCare (start serverIP serverPort mcsock) events) :
    Always (Det step) UsesRecorded (start serverIP serverPort mcsock) events :=
  .of_invariant tracked_start careful (fun _ _ _ tracked careful call =>
    tracked.step careful call) fun _ => Tracked.uses

/-- The descriptor of a failed connection is used again only after the
application has read of the failure, first by a reply and then by a send. -/
theorem uses_recorded_reopened :
    Always (Det step) UsesRecorded (start 1 10 4)
      [.accept 5, .queue ⟨1, 2, 20, 5, [], false⟩,
       .recv ⟨⟨10, 0, []⟩, ⟨10, 1, []⟩, ⟨⟨10, 2, []⟩, -1, 0⟩⟩ true,
       .send ⟨⟨11, 3, []⟩, -1, 0⟩ true 7 1 [65],
       .fail 5, .recv ⟨⟨12, 4, []⟩, ⟨12, 5, []⟩, ⟨⟨12, 6, []⟩, -1, 0⟩⟩ true,
       .send ⟨⟨13, 7, []⟩, 5, 0⟩ true 7 1 [66]] :=
  uses_recorded 1 10 4 _ (by decide +kernel)

end Process

end LibSBus
