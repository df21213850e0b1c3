import Mathlib.Data.Fintype.Basic
import Mathlib.Algebra.BigOperators.Group.Multiset.Basic
import LibSBus.SBus.Entries

/-!
The automatic traffic between any number of instances, when the applications do
nothing but receive. What a message sets off is one reply to one peer, and the
reply is a step nearer to the end: a FIND is answered by a MANAMEIS, that by a
NAMETAKEN, and that by nothing. The only other traffic would be a search for a
contact of which no address is known, so there must be none.

Nothing is assumed about the tables but that: their entries may lead anywhere.
-/

namespace LibSBus

open Lib

def Action.isMessage : Action → Bool
  | .connect _ _ _ => false
  | .multicast _ _ => true
  | .unicast _ _ _ => true

namespace SContacts

/-- The table leads to no contact without an address. -/
def Located (c : SContacts) : Prop := ∀ x, c.Leads x → (c.info x).ip ≠ -1

theorem located_empty : Located empty := listed_empty (P := fun ip _ _ => ip ≠ -1)

theorem Located.updateSocket {c : SContacts} {p : Ptr} (located : Located c)
    (known : (c.info p).ip ≠ -1) (e : CallEnv) (socket : SocketType) :
    Located (c.updateSocket e p socket).2 :=
  Listed.refile (P := fun ip _ _ => ip ≠ -1)
    (r := { c.info p with socket := socket, name := e.stale }) located known

end SContacts

namespace SBus

open SContacts

variable {b b' : SBus} {env : StepEnv} {smsg : SMsg} {p : Ptr} {e : CallEnv}
  {id peer : SBusPeer} {actions : List Action} {res : Int} {msgtag : Int} {msg : CString}

/-- What of a list of actions is sent: all but the connects. -/
def messages (actions : List Action) : List Action := actions.filter Action.isMessage

/-- The contact a message is from has an address, also through the pointer that
`updateSocket` replaced. -/
theorem located_sender (located : Located b.scontacts) (known : smsg.ip ≠ -1)
    (call : b.sender e smsg = some (p, b')) :
    Located b'.scontacts ∧ (b'.scontacts.info p).ip ≠ -1 :=
  listed_sender (P := fun ip _ _ => ip ≠ -1) located (fun _ => known) (fun _ => known)
    (fun _ q found => located q (.inr (.inl ⟨_, found⟩))) call

/-- A send to a peer with an address is one message to that peer, or none. -/
theorem located_send {env : SendEnv} (located : Located b.scontacts)
    (call : b.send env msgtag peer msg = (res, b', actions)) :
    Located b'.scontacts ∧
      (messages actions = [] ∨ ∃ socket, messages actions = [.unicast msgtag socket msg]) := by
  refine ⟨listed_send (P := fun ip _ _ => ip ≠ -1) located (fun _ _ _ known _ _ => known) call,
    ?_⟩
  rcases send_cases env msgtag msg call with ⟨_, _, rfl⟩ | ⟨p, found, ⟨_, _, rfl⟩ |
    ⟨_, _, _, _, rfl⟩ | ⟨_, _, _, _, rfl⟩ | ⟨_, unknown, _, _⟩⟩
  · exact .inl rfl
  · exact .inr ⟨_, rfl⟩
  · exact .inr ⟨_, rfl⟩
  · exact .inl rfl
  · exact absurd unknown (located p (.inl ⟨_, found⟩))

/-- What a message sets off is the reply it asks for, or nothing. -/
theorem located_handle (located : Located b.scontacts) (known : (b.scontacts.info p).ip ≠ -1)
    (call : b.handle env smsg p peer = (id, b', actions)) :
    Located b'.scontacts ∧ (messages actions = [] ∨ ∃ tag socket,
      b.replyTag smsg = some tag ∧ messages actions = [.unicast tag socket b.name]) := by
  have written : Located (b.renamed env.rename smsg p).scontacts :=
    listed_renamed (P := fun ip _ _ => ip ≠ -1) located env.rename smsg known
  rcases handle_cases call with ⟨_, rfl, rfl⟩ | ⟨tag, res, reply, sent⟩
  · exact ⟨written, .inl rfl⟩
  · obtain ⟨located', one⟩ := located_send written sent
    refine ⟨located', one.imp_right ?_⟩
    rintro ⟨socket, only⟩
    exact ⟨tag, socket, reply, only⟩

theorem located_processSMsg (located : Located b.scontacts) (known : smsg.ip ≠ -1)
    (call : b.processSMsg env smsg = some (id, b', actions)) :
    Located b'.scontacts ∧ (messages actions = [] ∨ ∃ tag socket,
      b.replyTag smsg = some tag ∧ messages actions = [.unicast tag socket b.name]) := by
  rcases processSMsg_cases call with ⟨_, _, rfl, rfl⟩ | ⟨_, _, _, rfl, rfl⟩ |
    ⟨_, _, p, d, found, handled⟩
  · refine ⟨?_, .inl rfl⟩
    unfold processError
    split
    case h_1 p held =>
      have here : (b.scontacts.info p).ip ≠ -1 := located p (.inr (.inr (.inr ⟨_, held⟩)))
      exact located.updateSocket here _ _
    case h_2 unheld => exact located
  · exact ⟨located, .inl rfl⟩
  · obtain ⟨located', here⟩ := located_sender located known found
    have result := located_handle (b := d.touch env.lookup.now p) located' here handled
    rw [replyTag, touch, sender_name found] at result
    exact result

end SBus

/-- Where a frame ends up, and the sender it shows there. `getpeername` succeeds. -/
structure Landing (ι : Type*) where
  dst : ι
  ip : IP
  port : Port
  socket : SocketType
  located : ip ≠ -1

/-- The instances and the messages on their way to them. -/
structure Traffic (ι : Type*) where
  inst : ι → SBus
  flight : Multiset (ι × SMsg)

namespace Traffic

open SContacts

/-- An instance processes a message that has reached it. A frame may get lost. -/
structure Event (ι : Type*) where
  dst : ι
  smsg : SMsg
  env : StepEnv
  lands : Action → Option (Landing ι)

variable {ι : Type*}

/-- How many steps a message is at most from the end of the traffic it sets off. -/
def weight (msgtag : Int) : Nat :=
  if msgtag = sbusFind then 3 else if msgtag = sbusManameis then 2 else 1

def load (flight : Multiset (ι × SMsg)) : Nat := (flight.map fun m => weight m.2.msgtag).sum

/-- The measure of the messages on their way. -/
def pending (s : Traffic ι) : Nat := load s.flight

/-- No contact and no sender is without an address. -/
structure Addressed (s : Traffic ι) : Prop where
  contacts : ∀ i, Located (s.inst i).scontacts
  senders : ∀ m ∈ s.flight, m.2.ip ≠ -1

/-- Processing the message sends one message to one peer, or nothing. -/
def AnswersOnce (s : Traffic ι) (event : Event ι) : Prop :=
  ∀ result ∈ (s.inst event.dst).processSMsg event.env event.smsg,
    SBus.messages result.2.2 = [] ∨
      ∃ msgtag socket msg, SBus.messages result.2.2 = [.unicast msgtag socket msg]

theorem load_add (first second : Multiset (ι × SMsg)) :
    load (first + second) = load first + load second := by
  simp [load]

theorem Addressed.answersOnce {s : Traffic ι} {event : Event ι} (addressed : s.Addressed)
    (mem : (event.dst, event.smsg) ∈ s.flight) : s.AnswersOnce event := by
  rintro ⟨id, b, actions⟩ processed
  obtain ⟨_, none | ⟨tag, socket, _, one⟩⟩ := SBus.located_processSMsg
    (addressed.contacts event.dst) (addressed.senders _ mem) processed
  · exact .inl none
  · exact .inr ⟨tag, socket, _, one⟩

variable [DecidableEq ι] [Fintype ι]

/-- The messages an action of instance `i` puts on their way. -/
def sent (s : Traffic ι) (i : ι) (lands : Action → Option (Landing ι)) :
    Action → Multiset (ι × SMsg)
  | .connect _ _ _ => 0
  | .multicast msgtag msg =>
      (Finset.univ.erase i).val.map fun j =>
        (j, { msgtag := toShort msgtag, ip := (s.inst i).serverIP, port := (s.inst i).serverPort,
              socket := (s.inst j).mcsock, msg, error := false })
  | .unicast msgtag socket msg =>
      match lands (.unicast msgtag socket msg) with
      | none => 0
      | some l =>
          {(l.dst, { msgtag := toShort msgtag, ip := l.ip, port := l.port, socket := l.socket,
                     msg, error := false })}

def step (s : Traffic ι) (event : Event ι) : Option (Traffic ι) :=
  if (event.dst, event.smsg) ∈ s.flight then
    ((s.inst event.dst).processSMsg event.env event.smsg).map fun (_, b, actions) =>
      { inst := Function.update s.inst event.dst b
        flight := s.flight.erase (event.dst, event.smsg) +
          (actions.map (s.sent event.dst event.lands)).sum }
  else none

variable {s t : Traffic ι} {event : Event ι} {i : ι} {lands : Action → Option (Landing ι)}

/-- The connects send nothing. -/
theorem sum_sent_messages (s : Traffic ι) (i : ι) (lands : Action → Option (Landing ι))
    (actions : List Action) :
    ((SBus.messages actions).map (s.sent i lands)).sum = (actions.map (s.sent i lands)).sum := by
  induction actions with
  | nil => rfl
  | cons action actions ih =>
      cases action with
      | connect ip port fd => simpa [SBus.messages, Action.isMessage, sent] using ih
      | multicast msgtag msg => simpa [SBus.messages, List.filter_cons, Action.isMessage] using ih
      | unicast msgtag socket msg =>
          simpa [SBus.messages, List.filter_cons, Action.isMessage] using ih

/-- A frame weighs what its tag does, also when it gets lost. -/
theorem load_sent_unicast (s : Traffic ι) (msgtag : Int) (socket : SocketType) (msg : CString) :
    load (s.sent i lands (.unicast msgtag socket msg)) ≤ weight (toShort msgtag) := by
  unfold sent
  dsimp only
  split
  case h_1 lost => simp [load]
  case h_2 l landed => simp [load]

theorem ip_sent_unicast {msgtag : Int} {socket : SocketType} {msg : CString} {m : ι × SMsg}
    (mem : m ∈ s.sent i lands (.unicast msgtag socket msg)) : m.2.ip ≠ -1 := by
  unfold sent at mem
  dsimp only at mem
  split at mem
  case h_1 lost => simp at mem
  case h_2 l landed =>
    obtain rfl := Multiset.mem_singleton.mp mem
    exact l.located

/-- A reply is nearer to the end than what it answers. -/
theorem weight_reply {b : SBus} {smsg : SMsg} {tag : Int} (reply : b.replyTag smsg = some tag) :
    weight (toShort tag) < weight smsg.msgtag := by
  obtain ⟨_, ⟨find, rfl⟩ | ⟨manameis, rfl⟩⟩ := SBus.replyTag_cases reply
  · rw [find]
    decide
  · rw [manameis]
    decide

theorem weight_pos (msgtag : Int) : 0 < weight msgtag := by
  unfold weight
  split
  · decide
  · split <;> decide

theorem step_eq_some (taken : s.step event = some t) :
    (event.dst, event.smsg) ∈ s.flight ∧ ∃ id b actions,
      (s.inst event.dst).processSMsg event.env event.smsg = some (id, b, actions) ∧
      t.inst = Function.update s.inst event.dst b ∧
      t.flight = s.flight.erase (event.dst, event.smsg) +
        ((SBus.messages actions).map (s.sent event.dst event.lands)).sum := by
  obtain ⟨mem, taken⟩ := Option.ite_none_right_eq_some.mp taken
  obtain ⟨⟨id, b, actions⟩, processed, rfl⟩ := Option.map_eq_some_iff.mp taken
  exact ⟨mem, id, b, actions, processed, rfl, by rw [sum_sent_messages]⟩

theorem Addressed.step (addressed : s.Addressed) (taken : s.step event = some t) :
    t.Addressed ∧ t.pending < s.pending := by
  obtain ⟨mem, id, b, actions, processed, inst, flight⟩ := step_eq_some taken
  have known : event.smsg.ip ≠ -1 := addressed.senders _ mem
  obtain ⟨located, sends⟩ := SBus.located_processSMsg
    (addressed.contacts event.dst) known processed
  have contacts : ∀ i, Located (t.inst i).scontacts := by
    intro i
    rw [inst, Function.update_apply]
    split
    case isTrue here => exact located
    case isFalse there => exact addressed.contacts i
  have front : s.pending = weight event.smsg.msgtag +
      load (s.flight.erase (event.dst, event.smsg)) := by
    rw [pending, ← Multiset.cons_erase mem]
    simp [load]
  have old : ∀ m ∈ s.flight.erase (event.dst, event.smsg), m.2.ip ≠ -1 := fun m left =>
    addressed.senders m (Multiset.mem_of_mem_erase left)
  rw [pending, flight, load_add, front]
  rcases sends with none | ⟨tag, socket, reply, one⟩
  · rw [none] at flight ⊢
    have positive := weight_pos event.smsg.msgtag
    refine ⟨⟨contacts, ?_⟩, ?_⟩
    · simpa [flight] using old
    · simpa [load] using positive
  · rw [one] at flight ⊢
    have less := weight_reply reply
    have added : load (s.sent event.dst event.lands (.unicast tag socket
        (s.inst event.dst).name)) ≤ weight (toShort tag) :=
      load_sent_unicast s tag socket (s.inst event.dst).name
    rw [List.map_singleton, List.sum_singleton] at flight ⊢
    refine ⟨⟨contacts, ?_⟩, by omega⟩
    intro m mem
    rw [flight] at mem
    rcases Multiset.mem_add.mp mem with before | new
    · exact old m before
    · exact ip_sent_unicast new

/-- From any tables and any messages, as long as no contact and no sender is
without an address: every message that is processed is answered by one message
to one peer or by none, the measure gets smaller each time, and so the traffic
ends. -/
theorem traffic_ends {events : List (Event ι)} (addressed : s.Addressed)
    (run : Run (Det Traffic.step) s events t) :
    (∀ event u, t.step event = some u → t.AnswersOnce event ∧ u.pending < t.pending) ∧
      events.length + t.pending ≤ s.pending := by
  have reached := run.invariant (I := Addressed) addressed
    fun _ _ _ addressed taken => (addressed.step taken).1
  refine ⟨fun event u taken => ⟨?_, (reached.step taken).2⟩, ?_⟩
  · exact reached.answersOnce (step_eq_some taken).1
  · exact run.length_add_le (I := Addressed) addressed pending
      (fun _ _ _ addressed taken => (addressed.step taken).1)
      fun _ _ _ addressed taken => (addressed.step taken).2

/-- A search for a name is answered, and the answer is contested. -/
theorem traffic_ends_contested :
    ∃ s t : Traffic (Fin 2), ∃ events, s.Addressed ∧ Run (Det Traffic.step) s events t ∧
      events.length = 3 ∧ events.length + t.pending ≤ s.pending := by
  let bus (port : Port) : SBus := { SBus.init 1 port 4 with name := [97] }
  let s : Traffic (Fin 2) :=
    { inst := fun i => if i = 0 then bus 10 else bus 20
      flight := {(0, ⟨sbusFind, 1, 20, 4, [97], false⟩)} }
  let env : StepEnv := ⟨⟨10, 0, []⟩, ⟨10, 1, []⟩, ⟨⟨10, 2, []⟩, 7, 0⟩⟩
  let events : List (Event (Fin 2)) :=
    [⟨0, ⟨sbusFind, 1, 20, 4, [97], false⟩, env, fun _ => some ⟨1, 1, 10, 6, by decide⟩⟩,
     ⟨1, ⟨sbusManameis, 1, 10, 6, [97], false⟩, env, fun _ => some ⟨0, 1, 20, 6, by decide⟩⟩,
     ⟨0, ⟨sbusNametaken, 1, 20, 6, [97], false⟩, env, fun _ => none⟩]
  have addressed : s.Addressed := by
    refine ⟨fun i => ?_, by decide⟩
    show Located (if i = 0 then bus 10 else bus 20).scontacts
    split <;> exact located_empty
  obtain ⟨t, run⟩ : ∃ t, events.foldlM Traffic.step s = some t :=
    Option.isSome_iff_exists.mp (by decide +kernel)
  exact ⟨s, t, events, addressed, run_det_iff.mpr run, rfl,
    (traffic_ends addressed (run_det_iff.mpr run)).2⟩

end Traffic

end LibSBus
