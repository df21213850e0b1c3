import LibSBus.SBus.Calls
import LibSBus.SContacts.Sweeps

/-!
Contacts nobody deals with. A contact is used when a message from it is processed
and when something is sent to it. The sweep goes by the stamp of the last activity
instead, which is that of the last time a getter of the record was called or all
contacts were listed, whichever is later: others that come, reconnect, get lost or
are renamed keep a contact that is not used, and so does a send to it that fails.

The clock does not go back. The first part takes a sweep to visit each entry once;
the second one reads its loop as it stands.
-/

namespace LibSBus

open Lib

/-- What happens to a bus: a message of its queue is processed, something is sent to
a peer, the bus gets a name, or the table is called by itself. -/
inductive SBus.Event
  | message (env : StepEnv) (smsg : SMsg)
  | send (env : SendEnv) (msgtag : Int) (peer : SBusPeer) (msg : CString)
  | setName (name : CString)
  | call (op : SContacts.Op)

namespace SBus

open SContacts

variable {b b' : SBus} {ev : Event}

def calls (b : SBus) : Event → List Op
  | .message env smsg => b.processSMsgCalls env smsg
  | .send env _ peer _ => b.peer2SocketCalls env peer
  | .setName _ => []
  | .call op => [op]

def after (b : SBus) : Event → Option SBus
  | .message env smsg => (b.processSMsg env smsg).map fun out => out.2.1
  | .send env msgtag peer msg => some (b.send env msgtag peer msg).2.1
  | .setName name => some (b.setName name).1
  | .call op => (b.scontacts.execAny op).map fun scontacts => { b with scontacts }

theorem after_calls (taken : b.after ev = some b') :
    b.scontacts.execAll (b.calls ev) = some b'.scontacts := by
  cases ev with
  | message env smsg =>
      obtain ⟨⟨id, d, actions⟩, call, rfl⟩ := Option.map_eq_some_iff.mp taken
      exact processSMsg_calls call
  | send env msgtag peer msg =>
      obtain rfl := Option.some.inj taken
      exact send_calls rfl
  | setName name =>
      obtain rfl := Option.some.inj taken
      rfl
  | call op =>
      obtain ⟨c, call, rfl⟩ := Option.map_eq_some_iff.mp taken
      simp [calls, SContacts.execAll, call]

/-- The contact a message is from: the one connected by its socket, or else the one
at the address it shows. -/
def origin (b : SBus) (smsg : SMsg) : Option SBusPeer :=
  ((b.scontacts.findFromSocket smsg.socket).or (b.scontacts.findIpPort smsg.ip smsg.port)).map
    fun p => (b.scontacts.info p).peer

/-- The reply that processing a message makes is sent. -/
def Replies (b : SBus) (env : StepEnv) (smsg : SMsg) : Prop :=
  env.reply.sent = 0 ∧
    (b.processSMsg env smsg).any fun (_, _, actions) =>
      actions.any fun | .unicast _ _ _ => true | _ => false

instance (b : SBus) (env : StepEnv) (smsg : SMsg) : Decidable (b.Replies env smsg) :=
  @instDecidableAnd _ _ (Int.instDecidableEq _ _) (instDecidableEqBool _ _)

/-- A message from the contact is processed, or something is sent to it. -/
def Uses (b : SBus) (id : SBusPeer) : Event → Prop
  | .message env smsg => smsg.error = false ∧ ¬ b.isSelf smsg ∧
      (b.origin smsg = some id ∨ b.senderId env.lookup smsg = some id ∧ b.Replies env smsg)
  | .send env msgtag peer msg => peer = id ∧ (b.send env msgtag peer msg).1 = 0
  | .setName _ => False
  | .call _ => False

instance (b : SBus) (id : SBusPeer) : (ev : Event) → Decidable (b.Uses id ev)
  | .message _ _ => inferInstanceAs (Decidable (_ ∧ _ ∧ (_ ∨ _ ∧ _)))
  | .send _ _ _ _ => inferInstanceAs (Decidable (_ ∧ _))
  | .setName _ => .isFalse fun uses => uses
  | .call _ => .isFalse fun uses => uses

end SBus

namespace SContacts

variable {c c' : SContacts} {op : Op} {id : SBusPeer} {p x : Ptr} {r : SPeerInfo} {e : CallEnv}

/-- The call is a getter of the contact's record. -/
def Reads (c : SContacts) (id : SBusPeer) : Op → Prop
  | .getter _ p => c.findPeer id = some p
  | _ => False

instance (c : SContacts) (id : SBusPeer) : (op : Op) → Decidable (c.Reads id op)
  | .getter _ p => inferInstanceAs (Decidable (c.findPeer id = some p))
  | .add _ _ _ _ _ => .isFalse fun reads => reads
  | .updateSocket _ _ _ => .isFalse fun reads => reads
  | .updateName _ _ _ => .isFalse fun reads => reads
  | .doCleanUp _ => .isFalse fun reads => reads

/-- No record shows an id that was not given yet. -/
def Numbered (c : SContacts) : Prop := ∀ p, ((c.info p).peer : Int) ≤ c.lastPeerId

/-- What a call does: nothing to a known contact, a stamp, a sweep, or a record filed
under the id of an old one or under the next id. -/
theorem execAny_cases (call : c.execAny op = some c') :
    (¬ c.Lists op ∧ ¬ c.Sweeps op ∧ (∀ id, ¬ c.Reads id op) ∧ c' = c) ∨
    (∃ now p, op = .getter now p ∧ c' = c.touch now p) ∨
    (∃ now, op = .doCleanUp now ∧ c' = c.doCleanUp now) ∨
    (∃ e p r, op.time = e.now ∧ c.Lists op ∧ ¬ c.Sweeps op ∧ r.peer = (c.info p).peer ∧
      c' = ((c.erase e.now p).file e r).2) ∨
    ∃ e r, op.time = e.now ∧ c.Lists op ∧ r.peer = c.lastPeerId + 1 ∧
      c' = ((c.doCleanUp e.now).bump.file e r).2 := by
  cases op with
  | add e socket ip port name =>
      obtain ⟨⟨q, t⟩, added, rfl⟩ := Option.map_eq_some_iff.mp call
      rcases add_eq_some added with ⟨rfl, found⟩ | ⟨rfl, _, named⟩ | ⟨missing, unnamed, _, filed⟩
      · have known : ¬ t.Unknown ip port name := fun unknown => by
          rw [unknown.1] at found
          cases found
        exact .inl ⟨known, fun sweeps => known sweeps.2, fun _ reads => reads, rfl⟩
      · have known : ¬ t.Unknown ip port name := fun unknown => by
          rw [unknown.2] at named
          cases named
        exact .inl ⟨known, fun sweeps => known sweeps.2, fun _ reads => reads, rfl⟩
      · exact .inr (.inr (.inr (.inr ⟨e, _, rfl, ⟨missing, unnamed⟩, bump_lastPeerId,
          congrArg Prod.snd filed⟩)))
  | updateSocket e p socket =>
      obtain rfl := Option.some.inj call
      exact .inr (.inr (.inr (.inl ⟨e, p, { c.info p with socket := socket, name := e.stale },
        rfl, trivial, fun sweeps => sweeps.2, rfl, rfl⟩)))
  | updateName e p name =>
      obtain rfl := Option.some.inj call
      exact .inr (.inr (.inr (.inl ⟨e, p, { c.info p with name := name }, rfl, trivial,
        fun sweeps => sweeps.2, rfl, rfl⟩)))
  | doCleanUp now => exact .inr (.inr (.inl ⟨now, rfl, (Option.some.inj call).symm⟩))
  | getter now p => exact .inr (.inl ⟨now, p, rfl, (Option.some.inj call).symm⟩)

/-- A call that lists the contacts stamps all of them. -/
theorem execAny_stamps (call : c.execAny op = some c') (lists : c.Lists op)
    (entry : c'.findPeer id = some x) : c'.heap.lastActivity x = op.time := by
  rcases execAny_cases call with ⟨quiet, _⟩ | ⟨now, p, rfl, _⟩ | ⟨now, rfl, _⟩ |
    ⟨e, p, r, time, _, _, _, rfl⟩ | ⟨e, r, time, _, _, rfl⟩
  · exact absurd lists quiet
  · exact lists.elim
  · exact lists.elim
  · exact (file_lastActivity entry).trans time.symm
  · exact (file_lastActivity entry).trans time.symm

/-- Another call adds no entry, and stamps only the record whose getter it is. -/
theorem execAny_keeps_stamps (sound : IndexesSound c c.heap.live) (call : c.execAny op = some c')
    (quiet : ¬ c.Lists op) (entry : c'.findPeer id = some x) :
    c.findPeer id = some x ∧
      c'.heap.lastActivity x = if c.Reads id op then op.time else c.heap.lastActivity x := by
  rcases execAny_cases call with ⟨_, _, unread, rfl⟩ | ⟨now, p, rfl, rfl⟩ | ⟨now, rfl, rfl⟩ |
    ⟨_, _, _, _, lists, _⟩ | ⟨_, _, _, lists, _⟩
  · exact ⟨entry, (if_neg (unread id)).symm⟩
  · have old : c.findPeer id = some x := entry
    refine ⟨old, ?_⟩
    show Function.update c.heap.lastActivity p now x = if c.findPeer id = some p then now else _
    rw [Function.update_apply, old]
    exact if_congr (Option.some_inj.symm) rfl rfl
  · refine ⟨(((removed_doCleanUp sound now).peers id x).mp entry).1, ?_⟩
    refine (doCleanUp_lastActivity fun victim => ?_).trans (if_neg fun reads => reads).symm
    exact ((sound.findPeer_doCleanUp victim.1).mp entry).2 victim.2.2
  · exact absurd lists quiet
  · exact absurd lists quiet

/-- What a call leaves of the contacts after its sweep, the sweep had left. -/
theorem execAny_entries_of_sweeps (sound : IndexesSound c c.heap.live) (numbered : c.Numbered)
    (sweeps : c.Sweeps op) (call : c.execAny op = some c') (contact : c.findPeer id = some p)
    (left : c'.findPeer id = some x) : (c.doCleanUp op.time).findPeer id = some x := by
  rcases execAny_cases call with ⟨_, still, _⟩ | ⟨now, p, rfl, _⟩ | ⟨now, rfl, rfl⟩ |
    ⟨_, _, _, _, _, still, _⟩ | ⟨e, r, time, _, own, rfl⟩
  · exact absurd sweeps still
  · exact sweeps.2.elim
  · exact left
  · exact absurd sweeps still
  · rw [time]
    rcases Index.lookup_insert_eq_some.mp left with ⟨rfl, _⟩ | ⟨_, old⟩
    · have known := numbered p
      rw [(sound.peers _ p contact).2, own] at known
      exact absurd known (Int.not_le.mpr (Int.lt_succ _))
    · exact old

theorem IndexesSound.execAny (sound : IndexesSound c c.heap.live) (call : c.execAny op = some c') :
    IndexesSound c' c'.heap.live := by
  rcases execAny_cases call with ⟨_, _, _, rfl⟩ | ⟨now, p, _, rfl⟩ | ⟨now, _, rfl⟩ |
    ⟨e, p, r, _, _, _, _, rfl⟩ | ⟨e, r, _, _, _, rfl⟩
  · exact sound
  · exact ⟨sound.peers, sound.addrs, sound.names, sound.sockets⟩
  · rw [doCleanUp_live]
    exact (sound.removed (removed_doCleanUp sound now)).mono Set.sdiff_subset
  · exact sound.refile e.now e p r
  · exact sound.enter e.now e r

theorem Numbered.execAny (numbered : c.Numbered) (sound : IndexesSound c c.heap.live)
    (call : c.execAny op = some c') : c'.Numbered := by
  rcases execAny_cases call with ⟨_, _, _, rfl⟩ | ⟨now, p, _, rfl⟩ | ⟨now, _, rfl⟩ |
    ⟨e, p, r, _, _, _, same, rfl⟩ | ⟨e, r, _, _, own, rfl⟩
  · exact numbered
  · exact numbered
  · intro x
    rw [info, (removed_doCleanUp sound now).cell, doCleanUp_lastPeerId]
    exact numbered x
  · exact info_file_keeps (c := c.erase e.now p) (P := fun r => (r.peer : Int) ≤ c.lastPeerId)
      numbered (same ▸ numbered p)
  · show ∀ x, _ ≤ (c.doCleanUp e.now).bump.lastPeerId
    rw [bump_lastPeerId]
    refine info_file_keeps (P := fun r => (r.peer : Int) ≤ c.lastPeerId + 1) (fun x => ?_)
      (Int.le_of_eq own)
    rw [info_bump c e.now _ sound]
    exact (numbered x).trans (Int.le_of_lt (Int.lt_succ _))

end SContacts

/-- A bus, with the time each contact was last used and its getters were last called,
and the time all contacts were last listed. -/
structure Watched where
  bus : SBus
  used : SBusPeer → Int
  read : SBusPeer → Int
  listed : Int
  clock : Int

namespace Watched

open SContacts

variable {s t : Watched} {op : Op} {ops : List Op} {ev : SBus.Event}

/-- An id no contact has is not unused. -/
def call (s : Watched) (op : Op) : Option Watched :=
  if op.time < s.clock then none
  else
    (s.bus.scontacts.execAny op).map fun scontacts =>
      { bus := { s.bus with scontacts }
        used := fun id => if s.bus.scontacts.findPeer id = none then op.time else s.used id
        read := fun id => if s.bus.scontacts.Reads id op then op.time else s.read id
        listed := if s.bus.scontacts.Lists op then op.time else s.listed
        clock := op.time }

def step (s : Watched) (ev : SBus.Event) : Option Watched := do
  let t ← (s.bus.calls ev).foldlM call s
  let bus ← s.bus.after ev
  some { t with bus, used := fun id => if s.bus.Uses id ev then t.clock else t.used id }

def start (serverIP : IP) (serverPort : Port) (mcsock : SocketType) (clock : Int) : Watched :=
  { bus := .init serverIP serverPort mcsock
    used := fun _ => clock, read := fun _ => clock, listed := clock, clock }

/-- The contact is one the call would have to remove: it sweeps, and the contact was
not used for too long. -/
def Overdue (s : Watched) (op : Op) (id : SBusPeer) : Prop :=
  s.bus.scontacts.Sweeps op ∧ s.bus.scontacts.findPeer id ≠ none ∧
    op.time - s.used id > maxAllowedPeerinfoIdleS

instance (s : Watched) (op : Op) (id : SBusPeer) : Decidable (s.Overdue op id) :=
  inferInstanceAs (Decidable (_ ∧ _))

/-- The sweep of the call removes every contact that was not used for too long. -/
def RemovesUnused (s : Watched) (op : Op) : Prop :=
  ∀ id, s.Overdue op id → (s.bus.scontacts.doCleanUp op.time).findPeer id = none ∧
    ∀ c, s.bus.scontacts.execAny op = some c → c.findPeer id = none

/-- `P` holds at each call on the table that the event makes. -/
def EachCall (P : Watched → Op → Prop) (s : Watched) (ev : SBus.Event) : Prop :=
  EachStep (Det call) P s (s.bus.calls ev)

/-- A multicast announcement, processed at `now`. -/
def announcement (now : Int) (addr : Ptr) (ip : IP) (name : CString) : SBus.Event :=
  .message ⟨⟨now, addr, []⟩, ⟨now, addr + 1, []⟩, ⟨⟨now, addr + 2, []⟩, -1, -1⟩⟩
    { msgtag := sbusManameis, ip, port := 1, socket := 4, msg := name, error := false }

/-- Nothing is heard of contact 1 for more than two hours, but contact 2 gets another
name in that time. A message of a third one runs the sweep, which keeps contact 1. -/
theorem unused_contact_stays :
    ¬ ∀ serverIP serverPort mcsock clock events,
      EachStep (Det step) (EachCall RemovesUnused) (start serverIP serverPort mcsock clock)
        events := by
  intro always
  obtain ⟨s, run, op, rest, calls, overdue, stays⟩ : ∃ s, Run (Det step) (start 9 9 4 0)
      [announcement 10 0 1 [97], announcement 20 2 2 [98], announcement 7000 4 2 [99]] s ∧
      ∃ op rest, s.bus.calls (announcement 7300 6 3 [100]) = op :: rest ∧
        s.Overdue op 1 ∧ (s.bus.scontacts.doCleanUp op.time).findPeer 1 ≠ none :=
    ⟨_, run_det_iff.mpr rfl, .add ⟨7300, 6, []⟩ (-1) 3 1 (safeName 9 9), _, by rfl,
      by decide +kernel, by decide +kernel⟩
  have every := always 9 9 4 0 ([announcement 10 0 1 [97], announcement 20 2 2 [98],
    announcement 7000 4 2 [99]] ++ [announcement 7300 6 3 [100]])
  have each := (every.after run).1
  rw [EachCall, calls] at each
  exact stays (each.1 1 overdue).1

/-- The loop of the sweep does so, and never advances an iterator from an entry it
has erased. -/
def LoopRemovesUnused (s : Watched) (op : Op) : Prop :=
  s.RemovesUnused op ∧ ∀ id, s.Overdue op id →
    ReadsLive (trace (s.bus.scontacts.doCleanUpWalking op.time))

/-- A contact that was not used for too long was not read or listed either. -/
def UnusedUnread (s : Watched) (op : Op) : Prop :=
  ∀ id, s.Overdue op id → op.time - s.read id > maxAllowedPeerinfoIdleS ∧
    op.time - s.listed > maxAllowedPeerinfoIdleS

def NoneOverdue (s : Watched) (op : Op) : Prop := ∀ id, ¬ s.Overdue op id

/-- The invariant: each contact carries the stamp of the last getter or of the last
listing. -/
structure Stamped (s : Watched) : Prop where
  sound : IndexesSound s.bus.scontacts s.bus.scontacts.heap.live
  numbered : s.bus.scontacts.Numbered
  stamps : ∀ id p, s.bus.scontacts.findPeer id = some p →
    s.bus.scontacts.heap.lastActivity p = max (s.read id) s.listed
  read : ∀ id, s.read id ≤ s.clock
  listed : s.listed ≤ s.clock

theorem stamped_start (serverIP : IP) (serverPort : Port) (mcsock : SocketType) (clock : Int) :
    (start serverIP serverPort mcsock clock).Stamped where
  sound := indexesSound_empty
  numbered _ := Int.le_refl 0
  stamps id p entry := by simp [start, SBus.init, findPeer, empty] at entry
  read _ := le_rfl
  listed := le_rfl

theorem call_eq_some (taken : s.call op = some t) :
    s.clock ≤ op.time ∧ s.bus.scontacts.execAny op = some t.bus.scontacts ∧
      t.clock = op.time ∧
      (t.listed = if s.bus.scontacts.Lists op then op.time else s.listed) ∧
      ∀ id, t.read id = if s.bus.scontacts.Reads id op then op.time else s.read id := by
  obtain ⟨later, taken⟩ := Option.ite_none_left_eq_some.mp taken
  obtain ⟨scontacts, call, rfl⟩ := Option.map_eq_some_iff.mp taken
  exact ⟨Int.not_lt.mp later, call, rfl, rfl, fun _ => rfl⟩

theorem Stamped.call (stamped : s.Stamped) (taken : s.call op = some t) : t.Stamped := by
  obtain ⟨later, call, clock, listed, read⟩ := call_eq_some taken
  have read_le : ∀ id, t.read id ≤ t.clock := by
    intro id
    rw [read, clock]
    split
    case isTrue here => exact le_rfl
    case isFalse there => exact (stamped.read id).trans later
  refine ⟨stamped.sound.execAny call, stamped.numbered.execAny stamped.sound call,
    fun id p entry => ?_, read_le, ?_⟩
  · by_cases lists : s.bus.scontacts.Lists op
    · have bound := read_le id
      rw [execAny_stamps call lists entry, listed, if_pos lists]
      omega
    · obtain ⟨old, stamp⟩ := execAny_keeps_stamps stamped.sound call lists entry
      have bound := stamped.listed
      rw [stamp, listed, if_neg lists, read, stamped.stamps id p old]
      split
      case isTrue reads => omega
      case isFalse unread => rfl
  · rw [listed, clock]
    split
    · exact le_rfl
    · exact stamped.listed.trans later

/-- What the sweep of a call removes. -/
theorem Stamped.removesUnused_iff (stamped : s.Stamped) (op : Op) :
    s.RemovesUnused op ↔ s.UnusedUnread op := by
  refine forall_congr' fun id => forall_congr' fun overdue => ?_
  obtain ⟨sweeps, known, _⟩ := overdue
  obtain ⟨p, entry⟩ := Option.ne_none_iff_exists'.mp known
  have idle : s.bus.scontacts.Idle op.time p ↔ op.time - s.read id > maxAllowedPeerinfoIdleS ∧
      op.time - s.listed > maxAllowedPeerinfoIdleS := by
    rw [Idle, stamped.stamps id p entry]
    omega
  rw [← idle]
  have swept : ∀ x, (s.bus.scontacts.doCleanUp op.time).findPeer id = some x ↔
      x = p ∧ ¬ s.bus.scontacts.Idle op.time x := by
    intro x
    rw [stamped.sound.findPeer_doCleanUp sweeps.1, entry, Option.some_inj, eq_comm]
  constructor
  · rintro ⟨removed, _⟩
    by_contra busy
    rw [(swept p).mpr ⟨rfl, busy⟩] at removed
    cases removed
  · intro old
    have gone : ∀ x, (s.bus.scontacts.doCleanUp op.time).findPeer id ≠ some x := by
      intro x left
      obtain ⟨rfl, busy⟩ := (swept x).mp left
      exact busy old
    refine ⟨Option.eq_none_iff_forall_ne_some.mpr gone, fun c call => ?_⟩
    rw [Option.eq_none_iff_forall_ne_some]
    intro x left
    exact gone x (execAny_entries_of_sweeps stamped.sound stamped.numbered sweeps call entry left)

/-- A contact that is removed is erased under the iterator. -/
theorem Stamped.loopRemovesUnused_iff (stamped : s.Stamped) (op : Op) :
    s.LoopRemovesUnused op ↔ s.NoneOverdue op := by
  constructor
  · rintro ⟨removes, walks⟩ id overdue
    have removed := (removes id overdue).1
    have walks := walks id overdue
    obtain ⟨sweeps, known, _⟩ := overdue
    obtain ⟨p, entry⟩ := Option.ne_none_iff_exists'.mp known
    rw [doCleanUpWalking, if_pos sweeps.1, readsLive_sweepWalking] at walks
    have busy : ¬ s.bus.scontacts.Idle op.time p :=
      walks ⟨id, p⟩ (AList.mem_lookup_iff.mp entry)
    rw [(stamped.sound.findPeer_doCleanUp sweeps.1).mpr ⟨entry, busy⟩] at removed
    cases removed
  · intro nobody
    exact ⟨fun id overdue => absurd overdue (nobody id),
      fun id overdue => absurd overdue (nobody id)⟩

/-- The calls of an event leave the table that the event leaves. -/
theorem table_of_calls (run : Run (Det call) s ops t) :
    s.bus.scontacts.execAll ops = some t.bus.scontacts := by
  induction run with
  | nil => rfl
  | cons head _ ih =>
      rw [execAll, List.foldlM_cons, (call_eq_some head).2.1]
      exact ih

theorem Stamped.step (stamped : s.Stamped) (taken : s.step ev = some t) : t.Stamped := by
  obtain ⟨u, calls, taken⟩ := Option.bind_eq_some_iff.mp taken
  obtain ⟨b, after, taken⟩ := Option.bind_eq_some_iff.mp taken
  obtain rfl := Option.some.inj taken
  have run := run_det_iff.mpr calls
  have kept : u.Stamped := run.invariant stamped fun _ _ _ => Stamped.call
  have same : b.scontacts = u.bus.scontacts := by
    have left := table_of_calls run
    rw [SBus.after_calls after] at left
    exact Option.some.inj left
  refine ⟨?_, ?_, ?_, kept.read, kept.listed⟩
  · rw [same]
    exact kept.sound
  · rw [same]
    exact kept.numbered
  · rw [same]
    exact kept.stamps

/-- What is known of one call holds of whole runs. -/
theorem eachCall_iff {P Q : Watched → Op → Prop} (one : ∀ s op, s.Stamped → (P s op ↔ Q s op))
    (stamped : s.Stamped) (events : List SBus.Event) :
    EachStep (Det step) (EachCall P) s events ↔ EachStep (Det step) (EachCall Q) s events := by
  refine eachStep_iff (I := Stamped) stamped (fun s ev _ t stamped _ taken => stamped.step taken)
    fun s ev _ stamped => ?_
  exact eachStep_iff (I := Stamped) stamped (fun s op _ t stamped _ taken => stamped.call taken)
    fun s op _ => one s op

/-- In every run, all sweeps remove all contacts not used for too long if and only if
each contact that was not used for too long when a sweep ran had not been read or
listed for as long either. The loop as it stands does so if and only if no sweep
finds such a contact. -/
theorem removes_unused_iff (serverIP : IP) (serverPort : Port) (mcsock : SocketType) (clock : Int)
    (events : List SBus.Event) :
    (EachStep (Det step) (EachCall RemovesUnused)
        (start serverIP serverPort mcsock clock) events ↔
      EachStep (Det step) (EachCall UnusedUnread)
        (start serverIP serverPort mcsock clock) events) ∧
    (EachStep (Det step) (EachCall LoopRemovesUnused)
        (start serverIP serverPort mcsock clock) events ↔
      EachStep (Det step) (EachCall NoneOverdue)
        (start serverIP serverPort mcsock clock) events) := by
  have stamped := stamped_start serverIP serverPort mcsock clock
  exact ⟨eachCall_iff (fun _ op stamped => stamped.removesUnused_iff op) stamped events,
    eachCall_iff (fun _ op stamped => stamped.loopRemovesUnused_iff op) stamped events⟩

end Watched

end LibSBus
