import LibSBus.Lib.Refinement
import LibSBus.SBus.Directory
import LibSBus.SMessenger.Inbound

/-!
The network down to the bytes. Every instance has its messenger, with the thread that
polls it, its queue and its bus. What an instance sends to all becomes a datagram for
every multicast socket, its own one too. The network loses datagrams and delivers
them in any order, the kernel refuses some, and a message that is too long is not sent.

Instances that own their names, and whose datagrams come from the address they take
for their own, never ask their messengers for a connection. Then the network of packets
is what this one does: every run of it is a run of packets, in which the instances have
the same names and the same tables.
-/

namespace LibSBus

open Lib SContacts

/-- The datagrams that have not arrived become `wire`: some of them, in any order. -/
def Sock.reroute (wire : List Datagram) : Sock → Option Sock
  | .dgram old queue => if wire.Subperm old then some (.dgram wire queue) else none
  | _ => none

/-- An instance: its bus, its messenger, and the queue between its two threads. -/
structure Station where
  bus : SBus
  messenger : SMessenger
  inq : List SMsg

namespace Station

/-- `SBus::init` -/
def init (ip : IP) (servsock : SocketType) (port : Port) (mcsock : SocketType) : Option Station :=
  (SMessenger.construct ip servsock port mcsock).map fun messenger =>
    { bus := .init messenger.ip messenger.port messenger.mcsock, messenger, inq := [] }

/-- The multicast socket gets a new state. -/
def setMulticast (a : Station) (sock : Sock) : Station :=
  { a with messenger := a.messenger.setSock a.messenger.mcsock sock }

/-- A datagram is sent to all. -/
def hear (a : Station) (d : Datagram) : Station :=
  a.setMulticast ((a.messenger.sock a.messenger.mcsock).receive [] [d] false)

/-- One turn of `SBus::inLoop`. -/
def inLoop (a : Station) (env : RecvEnv) : Station :=
  let r := a.messenger.recv env
  { a with messenger := r.2, inq := a.inq ++ r.1.toList }

/-- The messages sent to all that are not processed yet, in their order. -/
def pending (a : Station) : List SMsg :=
  a.inq ++ a.messenger.inbound.map (Datagram.message a.messenger.mcsock)

variable {a : Station} {d : Datagram} {sock : Sock}

/-- Nothing happened to what is pending and to the contacts. -/
structure Same (a a' : Station) : Prop where
  pending : a'.pending = a.pending
  table : a'.bus.scontacts = a.bus.scontacts

theorem Same.refl (a : Station) : Same a a := ⟨rfl, rfl⟩

theorem hear_pending (a : Station) (tuned : a.messenger.Tuned) (good : d.WellFormed) :
    (a.hear d).messenger.Tuned ∧
      (a.hear d).pending = a.pending ++ [d.message a.messenger.mcsock] := by
  obtain ⟨tuned', inbound⟩ := tuned.receive good
  refine ⟨tuned', ?_⟩
  show a.inq ++ List.map _ (SMessenger.setSock _ _ _).inbound = _
  rw [inbound, List.map_append, ← List.append_assoc]
  rfl

/-- A turn of the receiving thread moves the next message to the queue. -/
theorem inLoop_pending (a : Station) (tuned : a.messenger.Tuned) {env : RecvEnv}
    (undisturbed : env.Undisturbed) : (a.inLoop env).pending = a.pending := by
  have took := tuned.recv undisturbed
  obtain ⟨read, inbound, returned⟩ := took.taken
  show (a.inq ++ (a.messenger.recv env).1.toList) ++
    (a.messenger.recv env).2.inbound.map (Datagram.message (a.messenger.recv env).2.mcsock) = _
  rw [took.mcsock, returned, List.append_assoc, ← List.map_append, ← inbound]
  rfl

/-- Fewer datagrams, in another order. -/
theorem reroute_pending {wire : List Datagram} (tuned : a.messenger.Tuned)
    (call : (a.messenger.sock a.messenger.mcsock).reroute wire = some sock) :
    (a.setMulticast sock).messenger.Tuned ∧ (a.setMulticast sock).pending.Subperm a.pending := by
  obtain ⟨open_, fewer⟩ : sock.kind = .dgram ∧ sock.inbound.Subperm a.messenger.inbound := by
    rw [SMessenger.inbound]
    cases eq : a.messenger.sock a.messenger.mcsock with
    | dgram old queue =>
        rw [eq] at call
        obtain ⟨fewer, rfl⟩ := Option.ite_some_none_eq_some.mp call
        exact ⟨rfl, (List.subperm_append_left queue).mpr fewer⟩
    | stream wire buffer eof remote =>
        rw [eq] at call
        cases call
    | closed =>
        rw [eq] at call
        cases call
  have waiting : (a.messenger.setSock a.messenger.mcsock sock).inbound = sock.inbound :=
    congrArg Sock.inbound (SMessenger.setSock_self _ _ sock)
  refine ⟨tuned.set open_ fewer.subset, ?_⟩
  show (a.inq ++ List.map _ (a.messenger.setSock a.messenger.mcsock sock).inbound).Subperm _
  rw [waiting]
  apply (List.subperm_append_left a.inq).mpr
  obtain ⟨some_, perm, sub⟩ := fewer
  exact ⟨_, perm.map _, sub.map _⟩

end Station

/-- The instances. `sent` has the messages that were sent to all, with the tag as it is
given to the messenger, `received` what `recv` has returned, and `asked` the connections
and the messages to single peers that a messenger was asked for. -/
structure Cluster (n : Nat) where
  station : Fin n → Station
  named : Fin n → Option CString
  sent : Fin n → List (Int × CString)
  received : Fin n → List Received
  asked : List (Fin n × Action)

variable {n : Nat}

/-- The message is from the address of instance `j`. -/
def Site.From (s : Site n) (j : Fin n) (smsg : SMsg) : Prop :=
  smsg.ip = s.ip j ∧ smsg.port = s.port j

instance (s : Site n) (j : Fin n) : DecidablePred (s.From j) := fun _ =>
  inferInstanceAs (Decidable (_ ∧ _))

/-- The messenger of instance `i` is as it was opened, and only gets data. -/
structure Station.Fit (s : Site n) (i : Fin n) (a : Station) : Prop where
  tuned : a.messenger.Tuned
  mcsock : a.messenger.mcsock = s.mcsock i
  port : a.messenger.port = s.port i
  data : ∀ smsg ∈ a.inq, smsg.error = false

/-- What instance `j` gets when instance `i` sends to all. -/
def Site.shout (s : Site n) (i j : Fin n) (msgtag : Int) (msg : CString) : SMsg :=
  { msgtag := toShort msgtag, ip := s.source i, port := s.port i, socket := s.mcsock j, msg,
    error := false }

/-- No instance has the address 0.0.0.0, and no multicast socket the number 0. -/
structure Site.Usable (s : Site n) : Prop where
  addressed : ∀ i, s.ip i ≠ 0
  numbered : ∀ i, 0 < s.mcsock i

namespace Cluster

def start (station : Fin n → Station) : Cluster n :=
  { station, named := fun _ => none, sent := fun _ => [], received := fun _ => [], asked := [] }

def set (c : Cluster n) (i : Fin n) (a : Station) : Cluster n :=
  { c with station := Function.update c.station i a }

/-- `SMessenger::send` over multicast. `accepted` is whether the kernel takes it. -/
def multicast (s : Site n) (c : Cluster n) (i : Fin n) (msgtag : Int) (msg : CString)
    (accepted : Bool) : Option (Cluster n) :=
  ((c.station i).messenger.sendMulticast msgtag msg accepted).map fun r =>
    r.2.elim c fun frame =>
      { c with
        station := fun j => (c.station j).hear ⟨s.source i, frame⟩
        sent := Function.update c.sent i (c.sent i ++ [(msgtag, msg)]) }

/-- What the messenger of instance `i` does when asked. -/
def perform (s : Site n) (i : Fin n) (accepted : Bool) (c : Cluster n) :
    Action → Option (Cluster n)
  | .multicast msgtag msg => c.multicast s i msgtag msg accepted
  | action => some { c with asked := c.asked ++ [(i, action)] }

/-- Instance `i` has processed the message in front of its queue. -/
def done (c : Cluster n) (i : Fin n) (bus : SBus) (rest : List SMsg) (received : List Received) :
    Cluster n :=
  { c.set i { c.station i with bus, inq := rest } with
    received := Function.update c.received i received }

/-- The application of an instance names it or sends to all. The network changes what is
on its way to an instance. The receiving thread makes a turn, or the loop of `recv`. -/
inductive Event (n : Nat)
  | setName (i : Fin n) (name : CString) (accepted : Bool)
  | multicast (i : Fin n) (msgtag : Int) (msg : CString) (accepted : Bool)
  | network (j : Fin n) (wire : List Datagram)
  | inLoop (i : Fin n) (env : RecvEnv)
  | turn (i : Fin n) (env : StepEnv) (accepted : Bool)

def step (s : Site n) (c : Cluster n) : Event n → Option (Cluster n)
  | .setName i name accepted =>
      let r := (c.station i).bus.setName name
      r.2.foldlM (perform s i accepted)
        { c.set i { c.station i with bus := r.1 } with
          named := Function.update c.named i (some name) }
  | .multicast i msgtag msg accepted => c.multicast s i msgtag msg accepted
  | .network j wire =>
      let a := c.station j
      ((a.messenger.sock a.messenger.mcsock).reroute wire).map fun sock =>
        c.set j (a.setMulticast sock)
  | .inLoop i env => some (c.set i ((c.station i).inLoop env))
  | .turn i env accepted =>
      match (c.station i).inq with
      | [] => some c
      | smsg :: rest => do
          let (peer, bus, actions) ← (c.station i).bus.processSMsg env smsg
          let received :=
            if peer ≥ 0 then c.received i ++ [⟨smsg, smsg.msgtag, peer, smsg.msg⟩]
            else c.received i
          actions.foldlM (perform s i accepted) (c.done i bus rest received)

/-- An instance sets a name it owns, and an application sends a message with a tag that is
positive when it is cut to sixteen bits. Nobody else connects. The first message of another
instance that one processes is an announcement. -/
def Orderly (s : Site n) (owns : Fin n → CString → Prop) (c : Cluster n) : Event n → Prop
  | .setName i name _ => owns i name ∧ name.length < 2 ^ 31
  | .multicast _ msgtag msg _ => 0 < toShort msgtag ∧ msg.length < 2 ^ 31
  | .network _ _ => True
  | .inLoop _ env => env.Undisturbed
  | .turn i _ _ =>
      ∀ smsg ∈ (c.station i).inq.head?, ¬ s.From i smsg →
        (c.station i).bus.scontacts.findIpPort smsg.ip smsg.port = none →
          smsg.msgtag = sbusManameis

variable {s : Site n} {owns : Fin n → CString → Prop} {c c' : Cluster n} {net : Net n}
  {i j k : Fin n} {msgtag : Int} {msg name : CString} {accepted : Bool} {event : Event n}
  {a : Station} {sock : Sock} {contested : Fin n → Bool} {smsg : SMsg}

/-- The messengers are in order, and were asked for nothing but what goes to all. -/
structure Sane (s : Site n) (c : Cluster n) : Prop where
  fit : ∀ i, (c.station i).Fit s i
  asked : c.asked = []

/-- The packets on their way include all messages that are pending, and the instances are
the same. -/
structure Mirrors (s : Site n) (c : Cluster n) (net : Net n) : Prop where
  inst : ∀ i, net.inst i = (c.station i).bus
  named : net.named = c.named
  flight : ∀ j smsg, ¬ s.From j smsg →
    (c.station j).pending.count smsg ≤
      net.flight.countP fun pk => pk.dst = j ∧ pk.smsg = smsg

/-- What an event has an instance send to all. -/
def Event.sends : Event n → Option (Fin n × Int × CString)
  | .setName i name _ => some (i, sbusManameis, name)
  | .multicast i msgtag msg _ => some (i, msgtag, msg)
  | _ => none

/-- The message is processed, and taken to be from the contact with the address of
instance `j`, whose id it gets. -/
structure Attributes (s : Site n) (j : Fin n) (env : StepEnv) (smsg : SMsg) (a a' : Station)
    (peer : SBusPeer) : Prop where
  sound : IndexesSound a.bus.scontacts a.bus.scontacts.heap.live
  data : smsg.error = false
  processed : ∃ actions, a.bus.processSMsg env smsg = some (peer, a'.bus, actions)
  found : ∃ p, a'.bus.scontacts.findIpPort (s.ip j) (s.port j) = some p ∧
    (a'.bus.scontacts.info p).peer = peer
  issued : (peer : Int) ≤ a'.bus.scontacts.lastPeerId

/-- What a step does with the messages. -/
inductive Effect (s : Site n) (c c' : Cluster n) : Event n → Prop
  | quiet (event : Event n) (same : ∀ j, (c.station j).Same (c'.station j))
      (sent : c'.sent = c.sent) (received : c'.received = c.received) : Effect s c c' event
  | sent (event : Event n) (i : Fin n) (msgtag : Int) (msg : CString)
      (sends : event.sends = some (i, msgtag, msg))
      (pending : ∀ j, (c'.station j).pending =
        (c.station j).pending ++ [s.shout i j msgtag msg])
      (table : ∀ j, (c'.station j).bus.scontacts = (c.station j).bus.scontacts)
      (sent : c'.sent = Function.update c.sent i (c.sent i ++ [(msgtag, msg)]))
      (received : c'.received = c.received) : Effect s c c' event
  | network (wire : List Datagram) (j : Fin n)
      (fewer : (c'.station j).pending.Subperm (c.station j).pending)
      (table : (c'.station j).bus.scontacts = (c.station j).bus.scontacts)
      (others : ∀ k, k ≠ j → (c.station k).Same (c'.station k))
      (sent : c'.sent = c.sent) (received : c'.received = c.received) :
      Effect s c c' (.network j wire)
  | ignored (event : Event n) (i : Fin n) (smsg : SMsg) (own : s.From i smsg)
      (front : (c.station i).pending = smsg :: (c'.station i).pending)
      (table : (c'.station i).bus.scontacts = (c.station i).bus.scontacts)
      (others : ∀ k, k ≠ i → (c.station k).Same (c'.station k))
      (sent : c'.sent = c.sent) (received : c'.received = c.received) : Effect s c c' event
  | handed (i j : Fin n) (other : j ≠ i) (smsg : SMsg) (peer : SBusPeer) (env : StepEnv)
      (accepted : Bool) (of : s.From j smsg)
      (front : (c.station i).pending = smsg :: (c'.station i).pending)
      (attributes : Attributes s j env smsg (c.station i) (c'.station i) peer)
      (others : ∀ k, k ≠ i → (c.station k).Same (c'.station k))
      (sent : c'.sent = c.sent)
      (received : c'.received = Function.update c.received i
        (c.received i ++ [⟨smsg, smsg.msgtag, peer, smsg.msg⟩])) :
      Effect s c c' (.turn i env accepted)

theorem station_set {P : Fin n → Station → Prop} (rest : ∀ j, j ≠ i → P j (c.station j))
    (here : P i a) : ∀ j, P j ((c.set i a).station j) := by
  intro j
  show P j (Function.update c.station i a j)
  by_cases same : j = i
  · subst same
    rwa [Function.update_self]
  · rw [Function.update_of_ne same]
    exact rest j same

/-- What a send to all does: the kernel or the messenger refuses it, or every instance
has one more message pending. -/
theorem Sane.multicast (sane : Sane s c) (usable : s.Usable) (int : msg.length < 2 ^ 31)
    (call : c.multicast s i msgtag msg accepted = some c') :
    Sane s c' ∧ c'.named = c.named ∧ c'.received = c.received ∧
      (∀ j, (c'.station j).bus = (c.station j).bus) ∧
      (c' = c ∨ ((∀ j, (c'.station j).pending =
          (c.station j).pending ++ [s.shout i j msgtag msg]) ∧
        c'.sent = Function.update c.sent i (c.sent i ++ [(msgtag, msg)]))) := by
  obtain ⟨⟨ret, buf⟩, sent, rfl⟩ := Option.map_eq_some_iff.mp call
  cases buf with
  | none => exact ⟨sane, rfl, rfl, fun _ => rfl, .inl rfl⟩
  | some frame =>
      obtain ⟨f, rfl, tag, port, data⟩ := sendMulticast_frame int sent
      have heard := fun j =>
        (c.station j).hear_pending (sane.fit j).tuned (wellFormed_encode f (s.source i))
      have message : ∀ j, (⟨s.source i, f.encode⟩ : Datagram).message
          (c.station j).messenger.mcsock = s.shout i j msgtag msg := by
        intro j
        have addressed : s.source i ≠ 0 := s.oneInterface i ▸ usable.addressed i
        rw [message_encode, if_neg addressed, tag, port, data, (sane.fit i).port,
          (sane.fit j).mcsock]
        rfl
      refine ⟨⟨fun j => ⟨(heard j).1, (sane.fit j).mcsock, (sane.fit j).port, (sane.fit j).data⟩,
        sane.asked⟩, rfl, rfl, fun _ => rfl, .inr ⟨fun j => ?_, rfl⟩⟩
      rw [← message j]
      exact (heard j).2

theorem Mirrors.multicast (mirrors : Mirrors s c net) (sane : Sane s c) (usable : s.Usable)
    (int : msg.length < 2 ^ 31) (call : c.multicast s i msgtag msg accepted = some c') :
    Mirrors s c' (net.multicast s i contested msgtag msg) := by
  obtain ⟨_, named, _, bus, effect⟩ := sane.multicast usable int call
  refine ⟨fun j => (mirrors.inst j).trans (bus j).symm, mirrors.named.trans named.symm,
    fun j smsg foreign => ?_⟩
  have before := mirrors.flight j smsg foreign
  rw [Net.multicast, List.countP_append]
  rcases effect with rfl | ⟨pending, _⟩
  · exact Nat.le_add_right_of_le before
  rw [pending, List.count_append]
  apply Nat.add_le_add before
  by_cases same : s.shout i j msgtag msg = smsg
  · subst same
    have other : j ≠ i := by
      rintro rfl
      exact foreign ⟨s.oneInterface j, rfl⟩
    rw [List.count_singleton_self]
    apply List.countP_pos_iff.mpr
    refine ⟨_, List.mem_map.mpr ⟨j, ?_, rfl⟩, decide_eq_true ⟨rfl, rfl⟩⟩
    simp [other]
  · rw [List.count_singleton, if_neg (by simpa using same)]
    exact Nat.zero_le _

/-- The state of the cluster, of the packets, and what the instances know. -/
structure Refined (s : Site n) (owns : Fin n → CString → Prop) (c : Cluster n) (net : Net n) :
    Prop where
  sane : Sane s c
  mirrors : Mirrors s c net
  informed : ∃ said, Net.Informed s owns net said

/-- A step of the cluster is answered by packets, and does something to the messages. -/
def Answered (s : Site n) (owns : Fin n → CString → Prop) (c c' : Cluster n) (net : Net n)
    (event : Event n) : Prop :=
  (∃ events net', GoodRun (Net.step s) (Net.Orderly owns) net events net' ∧
    Refined s owns c' net') ∧ Effect s c c' event

/-- Packets do not see the step. -/
theorem Refined.unseen (refined : Refined s owns c net) (sane : Sane s c')
    (bus : ∀ j, (c'.station j).bus = (c.station j).bus) (named : c'.named = c.named)
    (fewer : ∀ j, (c'.station j).pending.Subperm (c.station j).pending)
    (effect : Effect s c c' event) : Answered s owns c c' net event := by
  refine ⟨⟨[], net, .nil net, sane, ⟨fun j => ?_, ?_, fun j smsg foreign => ?_⟩,
    refined.informed⟩, effect⟩
  · rw [bus]
    exact refined.mirrors.inst j
  · rw [named]
    exact refined.mirrors.named
  · exact ((fewer j).count_le smsg).trans (refined.mirrors.flight j smsg foreign)

theorem Refined.setName (refined : Refined s owns c net) (usable : s.Usable)
    (owned : owns i name) (int : name.length < 2 ^ 31)
    (call : c.step s (.setName i name accepted) = some c') :
    Answered s owns c c' net (.setName i name accepted) := by
  obtain ⟨sane, mirrors, said, informed⟩ := refined
  let renamed : Cluster n :=
    { c.set i { c.station i with bus := { (c.station i).bus with name } } with
      named := Function.update c.named i (some name) }
  let named : Net n :=
    { net.setInst i { net.inst i with name } with
      named := Function.update net.named i (some name) }
  have same : ∀ j, (c.station j).Same (renamed.station j) :=
    station_set (fun j _ => .refl _) ⟨rfl, rfl⟩
  have sane' : Sane s renamed :=
    ⟨station_set (P := fun j a => a.Fit s j) (fun j _ => sane.fit j)
      ⟨(sane.fit i).tuned, (sane.fit i).mcsock, (sane.fit i).port, (sane.fit i).data⟩, sane.asked⟩
  have mirrors' : Mirrors s renamed named := by
    refine ⟨fun j => ?_, ?_, fun j smsg foreign => ?_⟩
    · show Function.update net.inst i _ j = (Function.update c.station i _ j).bus
      by_cases here : j = i
      · subst here
        rw [Function.update_self, Function.update_self, mirrors.inst]
      · rw [Function.update_of_ne here, Function.update_of_ne here, mirrors.inst]
    · show Function.update net.named i _ = Function.update c.named i _
      rw [mirrors.named]
    · rw [(same j).pending]
      exact mirrors.flight j smsg foreign
  have sent : renamed.multicast s i sbusManameis name accepted = some c' := by
    have performed : [Action.multicast sbusManameis name].foldlM (perform s i accepted) renamed =
        some c' := call
    simpa [perform] using performed
  have moved : net.step s (.setName i name) =
      some (named.multicast s i (fun j => decide (net.named j = some name)) sbusManameis name) :=
    rfl
  obtain ⟨sane'', _, received, bus, effect⟩ := sane'.multicast usable int sent
  refine ⟨⟨[.setName i name], _, .single owned moved, sane'',
    mirrors'.multicast sane' usable int sent, said,
    informed.setName owned moved⟩, ?_⟩
  have table : ∀ j, (c'.station j).bus.scontacts = (c.station j).bus.scontacts := fun j =>
    (congrArg SBus.scontacts (bus j)).trans (same j).table
  rcases effect with rfl | ⟨pending, sent⟩
  · exact .quiet _ same rfl received
  · exact .sent _ i sbusManameis name rfl (fun j => (pending j).trans (by rw [(same j).pending]))
      table sent received

theorem Refined.multicast (refined : Refined s owns c net) (usable : s.Usable)
    (user : 0 < toShort msgtag) (int : msg.length < 2 ^ 31)
    (call : c.step s (.multicast i msgtag msg accepted) = some c') :
    Answered s owns c c' net (.multicast i msgtag msg accepted) := by
  obtain ⟨sane, mirrors, said, informed⟩ := refined
  have sent : c.multicast s i msgtag msg accepted = some c' := call
  have moved : net.step s (.multicast i msgtag msg) =
      some (net.multicast s i (fun _ => false) msgtag msg) := rfl
  obtain ⟨sane', _, received, bus, effect⟩ := sane.multicast usable int sent
  refine ⟨⟨[.multicast i msgtag msg], _, .single user moved, sane',
    mirrors.multicast sane usable int sent, said, informed.multicast user moved⟩, ?_⟩
  rcases effect with rfl | ⟨pending, sent⟩
  · exact .quiet _ (fun j => .refl _) rfl received
  · exact .sent _ i msgtag msg rfl pending (fun j => congrArg SBus.scontacts (bus j)) sent received

theorem Refined.network {wire : List Datagram} (refined : Refined s owns c net)
    (call : c.step s (.network j wire) = some c') :
    Answered s owns c c' net (.network j wire) := by
  obtain ⟨sock, rerouted, rfl⟩ := Option.map_eq_some_iff.mp call
  have fit := refined.sane.fit j
  obtain ⟨tuned, fewer⟩ := (c.station j).reroute_pending fit.tuned rerouted
  have sane : Sane s (c.set j ((c.station j).setMulticast sock)) :=
    ⟨station_set (P := fun j a => a.Fit s j) (fun k _ => refined.sane.fit k)
      ⟨tuned, fit.mcsock, fit.port, fit.data⟩, refined.sane.asked⟩
  have here : (c.set j ((c.station j).setMulticast sock)).station j =
      (c.station j).setMulticast sock := Function.update_self _ _ _
  have elsewhere : ∀ k, k ≠ j →
      (c.station k).Same ((c.set j ((c.station j).setMulticast sock)).station k) := by
    intro k other
    rw [show (c.set j _).station k = c.station k from Function.update_of_ne other _ _]
    exact .refl _
  apply refined.unseen sane _ rfl
  · apply station_set (P := fun k a => a.pending.Subperm (c.station k).pending)
      (fun k _ => List.Subperm.refl _) fewer
  · refine .network wire j ?_ ?_ elsewhere rfl rfl
    · rw [here]
      exact fewer
    · rw [here]
      rfl
  · exact station_set (P := fun k a => a.bus = (c.station k).bus) (fun _ _ => rfl) rfl

theorem Refined.inLoop {env : RecvEnv} (refined : Refined s owns c net)
    (undisturbed : env.Undisturbed) (call : c.step s (.inLoop i env) = some c') :
    Answered s owns c c' net (.inLoop i env) := by
  obtain rfl := Option.some.inj call
  have fit := refined.sane.fit i
  have took := fit.tuned.recv undisturbed
  have pending := (c.station i).inLoop_pending fit.tuned undisturbed
  have data : ∀ smsg ∈ ((c.station i).inLoop env).inq, smsg.error = false := by
    intro smsg mem
    rcases List.mem_append.mp mem with old | new
    · exact fit.data smsg old
    · obtain ⟨read, _, returned⟩ := took.taken
      rw [returned] at new
      obtain ⟨d, _, rfl⟩ := List.mem_map.mp new
      rfl
  have sane : Sane s (c.set i ((c.station i).inLoop env)) :=
    ⟨station_set (P := fun j a => a.Fit s j) (fun k _ => refined.sane.fit k)
      ⟨took.tuned, took.mcsock.trans fit.mcsock, took.port.trans fit.port, data⟩,
      refined.sane.asked⟩
  have same : ∀ j, (c.station j).Same ((c.set i ((c.station i).inLoop env)).station j) :=
    station_set (fun j _ => .refl _) ⟨pending, rfl⟩
  apply refined.unseen sane _ rfl
  · intro j
    rw [(same j).pending]
  · exact .quiet _ same rfl rfl
  · exact station_set (P := fun k a => a.bus = (c.station k).bus) (fun _ _ => rfl) rfl

/-- The message of another instance that is processed is on its way as a packet. -/
theorem Mirrors.packet (mirrors : Mirrors s c net) (pending : smsg ∈ (c.station i).pending)
    (foreign : ¬ s.From i smsg) : ∃ pk ∈ net.flight, pk.dst = i ∧ pk.smsg = smsg := by
  have some_ := (List.count_pos_iff.mpr pending).trans_le (mirrors.flight i smsg foreign)
  obtain ⟨pk, mem, is⟩ := List.countP_pos_iff.mp some_
  exact ⟨pk, mem, of_decide_eq_true is⟩

/-- A message is processed, and its packet delivered. -/
theorem Mirrors.deliver {pk : Packet n} {bus : SBus} (mirrors : Mirrors s c net)
    (mem : pk ∈ net.flight) (same : c'.named = c.named)
    (front : (c.station pk.dst).pending = pk.smsg :: (c'.station pk.dst).pending)
    (here : (c'.station pk.dst).bus = bus)
    (others : ∀ j, j ≠ pk.dst → c'.station j = c.station j) :
    Mirrors s c' { net.setInst pk.dst bus with flight := net.flight.erase pk } := by
  refine ⟨fun j => ?_, mirrors.named.trans same.symm, fun j smsg foreign => ?_⟩
  · show Function.update net.inst pk.dst bus j = _
    by_cases dst : j = pk.dst
    · subst dst
      rw [Function.update_self, here]
    · rw [Function.update_of_ne dst, others j dst, mirrors.inst]
  have before := mirrors.flight j smsg foreign
  rw [List.countP_erase]
  by_cases dst : j = pk.dst
  · subst dst
    rw [front, List.count_cons] at before
    by_cases is : pk.smsg = smsg
    · simp only [is, beq_self_eq_true, if_true] at before
      simp only [mem, is, and_self, decide_true, if_true]
      omega
    · simp only [is, and_false, decide_false, Bool.false_eq_true, if_false]
      omega
  · have apart : ¬ (pk.dst = j ∧ pk.smsg = smsg) := fun is => dst is.1.symm
    rw [others j dst]
    simp only [apart, decide_false, Bool.false_eq_true, and_false, if_false]
    exact before

/-- The message in front of the queue is pending no more. -/
theorem Sane.done {rest : List SMsg} (sane : Sane s c)
    (queue : (c.station i).inq = smsg :: rest) (bus : SBus) (received : List Received) :
    Sane s (c.done i bus rest received) ∧
      ((c.done i bus rest received).station i).bus = bus ∧
      (c.station i).pending = smsg :: ((c.done i bus rest received).station i).pending ∧
      ∀ k, k ≠ i → (c.done i bus rest received).station k = c.station k := by
  have fit := sane.fit i
  have here : (c.done i bus rest received).station i = { c.station i with bus, inq := rest } :=
    Function.update_self _ _ _
  have left : ∀ smsg ∈ rest, smsg.error = false := by
    intro x mem
    apply fit.data
    rw [queue]
    exact List.mem_cons_of_mem smsg mem
  refine ⟨⟨station_set (P := fun j a => a.Fit s j) (fun k _ => sane.fit k)
    ⟨fit.tuned, fit.mcsock, fit.port, left⟩, sane.asked⟩, ?_, ?_, ?_⟩
  · rw [here]
  · rw [here, Station.pending, Station.pending, queue]
    rfl
  · exact fun k other => Function.update_of_ne other _ _

theorem Refined.turn {env : StepEnv} (refined : Refined s owns c net) (unshared : Unshared owns)
    (orderly : Orderly s owns c (.turn i env accepted))
    (call : c.step s (.turn i env accepted) = some c') :
    Answered s owns c c' net (.turn i env accepted) := by
  obtain ⟨sane, mirrors, said, informed⟩ := refined
  rcases queue : (c.station i).inq with _ | ⟨smsg, rest⟩
  case nil =>
    simp only [step, queue] at call
    obtain rfl := Option.some.inj call
    exact Refined.unseen ⟨sane, mirrors, said, informed⟩ sane (fun _ => rfl) rfl
      (fun _ => List.Subperm.refl _) (.quiet _ (fun _ => .refl _) rfl rfl)
  simp only [step, queue] at call
  obtain ⟨⟨peer, bus, actions⟩, processed, call⟩ := Option.bind_eq_some_iff.mp call
  obtain ⟨known, _, lists⟩ := informed.lists i
  rw [mirrors.inst] at lists
  have data : smsg.error = false := (sane.fit i).data smsg (by simp [queue])
  obtain ⟨sane', here, front, others⟩ := sane.done queue bus
    (if peer ≥ 0 then c.received i ++ [⟨smsg, smsg.msgtag, peer, smsg.msg⟩] else c.received i)
  have elsewhere : ∀ k, k ≠ i → (c.station k).Same ((c.done i bus rest (if peer ≥ 0 then
      c.received i ++ [⟨smsg, smsg.msgtag, peer, smsg.msg⟩] else c.received i)).station k) := by
    intro k other
    rw [others k other]
    exact .refl _
  by_cases own : s.From i smsg
  · have self : (c.station i).bus.isSelf smsg :=
      ⟨own.1.trans lists.placed.1.symm, own.2.trans lists.placed.2.1.symm⟩
    rcases SBus.processSMsg_cases processed with ⟨lost, _⟩ | ⟨_, _, rfl, rfl, rfl⟩ | ⟨_, other, _⟩
    · rw [data] at lost
      cases lost
    · obtain rfl := Option.some.inj call
      apply Refined.unseen ⟨sane, mirrors, said, informed⟩ sane' _ rfl
      · intro k
        by_cases same : k = i
        · subst same
          rw [front]
          exact (List.sublist_cons_self _ _).subperm
        · rw [others k same]
      · apply Effect.ignored _ i smsg own front (congrArg SBus.scontacts here) elsewhere rfl
        exact Function.update_eq_self i c.received
      · intro k
        by_cases same : k = i
        · subst same
          exact here
        · rw [others k same]
    · exact absurd self other
  · have pending : smsg ∈ (c.station i).pending := by
      rw [front]
      exact List.mem_cons_self
    obtain ⟨pk, mem, rfl, rfl⟩ := mirrors.packet pending own
    have first : (net.inst pk.dst).scontacts.findIpPort pk.smsg.ip pk.smsg.port = none →
        pk.smsg.msgtag = sbusManameis := by
      rw [mirrors.inst]
      exact orderly pk.smsg (by simp [queue]) own
    have table := lists.directory.consistent.sound
    rw [← mirrors.inst] at processed table
    obtain ⟨rfl, _, known', _, _, lists', p, found, id⟩ :=
      informed.hears unshared mem first processed
    obtain rfl := Option.some.inj call
    obtain ⟨heard, _⟩ := informed.flight pk mem
    have moved : net.step s (.deliver pk env ⟨0, 0⟩) =
        some { net.setInst pk.dst bus with flight := net.flight.erase pk } := by
      rw [Net.step, if_pos mem, processed]
      rfl
    obtain ⟨contact, ip, port⟩ := lists'.directory.found_iff.mp found
    have issued := lists'.directory.consistent.ids _ p contact.2
    rw [id] at issued
    have positive : peer ≥ 0 := Int.le_trans (by decide) issued.1
    refine ⟨⟨[.deliver pk env ⟨0, 0⟩], _, .single first moved, sane',
      mirrors.deliver mem rfl front here others, _, informed.deliver unshared first moved⟩, ?_⟩
    apply Effect.handed pk.dst pk.src heard.other pk.smsg peer env accepted
      ⟨heard.ip, heard.port⟩ front _ elsewhere rfl
    · exact congrArg (Function.update c.received pk.dst) (if_pos positive)
    · rw [mirrors.inst] at processed table
      refine ⟨table.mono fun x contact => contact.1, data, ⟨[], ?_⟩, ⟨p, ?_⟩, ?_⟩ <;> rw [here]
      · exact processed
      · exact ⟨found, id⟩
      · exact issued.2

theorem Refined.step (refined : Refined s owns c net) (unshared : Unshared owns)
    (usable : s.Usable) (orderly : Orderly s owns c event) (call : c.step s event = some c') :
    Answered s owns c c' net event := by
  cases event with
  | setName i name accepted => exact refined.setName usable orderly.1 orderly.2 call
  | multicast i msgtag msg accepted => exact refined.multicast usable orderly.1 orderly.2 call
  | network j wire => exact refined.network call
  | inLoop i env => exact refined.inLoop orderly call
  | turn i env accepted => exact refined.turn unshared orderly call

/-- The instances as they start. -/
theorem station_init {servsock : SocketType} (usable : s.Usable)
    (made : Station.init (s.ip i) servsock (s.port i) (s.mcsock i) = some a) :
    a.Fit s i ∧ a.pending = [] ∧ a.bus = SBus.init (s.ip i) (s.port i) (s.mcsock i) := by
  obtain ⟨m, opened, rfl⟩ := Option.map_eq_some_iff.mp made
  obtain ⟨tuned, mcsock, ip, port, nothing⟩ :=
    SMessenger.tuned_construct opened (usable.numbered i)
  refine ⟨⟨tuned, mcsock, port, fun smsg mem => by cases mem⟩, ?_, ?_⟩
  · rw [Station.pending, nothing]
    rfl
  · rw [mcsock, ip, port]

theorem refined_start {station : Fin n → Station} {servsock : Fin n → SocketType}
    (usable : s.Usable) (default : ∀ i, owns i (safeName (s.ip i) (s.port i)))
    (made : ∀ i, Station.init (s.ip i) (servsock i) (s.port i) (s.mcsock i) =
      some (station i)) : Refined s owns (start station) (Net.start s) := by
  have each := fun i => station_init usable (made i)
  refine ⟨⟨fun i => (each i).1, rfl⟩, ⟨fun i => (each i).2.2.symm, rfl, fun j smsg _ => ?_⟩,
    _, Net.informed_start default⟩
  show (station j).pending.count smsg ≤ 0
  rw [(each j).2.1]
  exact Nat.le_refl 0

/-- Every run down to the bytes is one of packets. The instances have the same names and
the same contacts after it, what is pending at one of them is on its way there, and no
messenger was ever asked for a connection. -/
theorem refines_packets {station : Fin n → Station} {servsock : Fin n → SocketType}
    {events : List (Event n)} (usable : s.Usable) (unshared : Unshared owns)
    (default : ∀ i, owns i (safeName (s.ip i) (s.port i)))
    (made : ∀ i, Station.init (s.ip i) (servsock i) (s.port i) (s.mcsock i) =
      some (station i))
    (orderly : EachStep (Det (step s)) (Orderly s owns) (start station) events)
    (run : Run (Det (step s)) (start station) events c) :
    c.asked = [] ∧ ∃ packets net, Run (Det (Net.step s)) (Net.start s) packets net ∧
      EachStep (Det (Net.step s)) (Net.Orderly owns) (Net.start s) packets ∧
      Mirrors s c net := by
  obtain ⟨packets, net, ⟨moves, good⟩, refined⟩ :=
    run.refines (refined_start usable default made) orderly
      fun _ _ _ _ refined orderly call => (refined.step unshared usable orderly call).1
  exact ⟨refined.sane.asked, packets, net, moves, good, refined.mirrors⟩

instance [∀ i name, Decidable (owns i name)] (c : Cluster n) :
    (event : Event n) → Decidable (Orderly s owns c event)
  | .setName _ _ _ => inferInstanceAs (Decidable (_ ∧ _))
  | .multicast _ _ _ _ => inferInstanceAs (Decidable (_ ∧ _))
  | .network _ _ => .isTrue trivial
  | .inLoop _ _ => inferInstanceAs (Decidable (_ ∧ _))
  | .turn _ _ _ => inferInstanceAs (Decidable (∀ smsg ∈ _, _ → _ → _))

/-- The instances of `threeSite` as they start. -/
def threeStations (i : Fin 3) : Station :=
  { bus := .init 1 (Net.threeSite.port i) 4
    messenger := .initMCast { servsock := 3, mcsock := invalidSocket, ip := 1,
                              port := Net.threeSite.port i, spoll := [], sock := fun _ => .closed }
                  (some 4)
    inq := [] }

theorem made_threeStations (i : Fin 3) :
    Station.init (Net.threeSite.ip i) 3 (Net.threeSite.port i) (Net.threeSite.mcsock i) =
      some (threeStations i) := rfl

theorem usable_threeSite : Net.threeSite.Usable where
  addressed i := by
    show (1 : IP) ≠ 0
    decide
  numbered i := by
    show (0 : SocketType) < 4
    decide

/-- Instances `i` and `j` announce their names, and one of them sends a message. -/
def threeSent (i j : Fin n) : List (Event n) :=
  [.setName i [97] true, .multicast i 65543 [1] true, .setName j [98] true]

/-- Instance `k` reads a datagram and processes its message. -/
def readsOne (k : Fin n) : List (Event n) :=
  [.inLoop k ⟨.idle, [[⟨POLLIN, fun _ => 3, 0, 0, none⟩]]⟩,
    .turn k ⟨⟨10, 0, []⟩, ⟨10, 1, []⟩, ⟨⟨10, 2, []⟩, 5, 0⟩⟩ true]

/-- The message to instance `k` is lost, and the announcements arrive in the other order. -/
def overtaken (i j k : Fin n) : List (Event n) :=
  threeSent i j ++ .network k [⟨1, [255, 255, 0, 11, 0, 0, 0, 1, 98]⟩,
    ⟨1, [255, 255, 0, 10, 0, 0, 0, 1, 97]⟩] :: (readsOne k ++ readsOne k)

theorem orderly_overtaken :
    EachStep (Det (step Net.threeSite)) (Orderly Net.threeSite Net.threeNames) (start threeStations)
      (overtaken 0 1 2) := by
  decide +kernel

theorem run_overtaken :
    ∃ c, Run (Det (step Net.threeSite)) (start threeStations) (overtaken 0 1 2) c ∧
      (c.received 2).map (fun r => (r.msgtag, r.msg)) = [(-1, [98]), (-1, [97])] := by
  have taken : ((overtaken 0 1 2).foldlM (step Net.threeSite) (start threeStations)).map
      (fun c => (c.received 2).map fun r => (r.msgtag, r.msg)) =
        some [(-1, [98]), (-1, [97])] := by
    decide +kernel
  obtain ⟨c, fold, received⟩ := Option.map_eq_some_iff.mp taken
  exact ⟨c, run_det_iff.mpr fold, received⟩

theorem refines_packets_overtaken :
    ∃ c, Run (Det (step Net.threeSite)) (start threeStations) (overtaken 0 1 2) c ∧ c.asked = [] ∧
      ∃ packets net, Run (Det (Net.step Net.threeSite)) (Net.start Net.threeSite) packets net ∧
        EachStep (Det (Net.step Net.threeSite)) (Net.Orderly Net.threeNames)
          (Net.start Net.threeSite) packets ∧ Mirrors Net.threeSite c net := by
  obtain ⟨c, run, _⟩ := run_overtaken
  exact ⟨c, run, refines_packets usable_threeSite Net.unshared_threeNames Net.threeNames_default
    made_threeStations orderly_overtaken run⟩

end Cluster

end LibSBus
