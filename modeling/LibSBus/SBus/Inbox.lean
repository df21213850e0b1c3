import LibSBus.SBus.Senders

/-!
The queue between the receiving thread and the application. The thread pushes
what its messenger returns; the loop of `SBus::recv` takes one message after the
other, lets `processSMsg` look at it and hands it out unless that says -1. That
a message is not lost or handed out twice is a matter of the queue; that each is
handed out which should be rests on `processSMsg` returning an id, which is not
negative, on all of its other paths.
-/

namespace LibSBus

open Lib SContacts

/-- What `recv` gives the application, with the message it is from. -/
structure Received where
  smsg : SMsg
  msgtag : Int
  peer : SBusPeer
  msg : CString
deriving DecidableEq

/-- A bus with its queue, and what its calls of `recv` have returned. -/
structure Inbox where
  bus : SBus
  inq : List SMsg
  received : List Received

/-- A message the application of the instance at `ip` and `port` is given. -/
def SMsg.Deliverable (ip : IP) (port : Port) (smsg : SMsg) : Prop :=
  smsg.error = false ∧ ¬ (smsg.ip = ip ∧ smsg.port = port) ∧ smsg.msgtag ≠ sbusFind

instance (ip : IP) (port : Port) : DecidablePred (SMsg.Deliverable ip port) := fun _ =>
  inferInstanceAs (Decidable (_ ∧ _))

namespace Inbox

/-- A push of the receiving thread, one turn of the loop of `recv`, or another
call of the application. -/
inductive Event
  | push (smsg : SMsg)
  | turn (env : StepEnv)
  | setName (name : CString)
  | send (env : SendEnv) (msgtag : Int) (peer : SBusPeer) (msg : CString)

def start (serverIP : IP) (serverPort : Port) (mcsock : SocketType) : Inbox :=
  { bus := SBus.init serverIP serverPort mcsock, inq := [], received := [] }

/-- `push_back` and `pop_front` are each done under `inMutex`. With an empty queue
`recv` sleeps and tries again. -/
def step (s : Inbox) : Event → Option Inbox
  | .push smsg => some { s with inq := s.inq ++ [smsg] }
  | .turn env =>
      match s.inq with
      | [] => some s
      | smsg :: rest => do
          let (peer, bus, _) ← s.bus.processSMsg env smsg
          if peer ≥ 0 then
            some { s with
              bus, inq := rest
              received := s.received ++ [⟨smsg, smsg.msgtag, peer, smsg.msg⟩] }
          else some { s with bus, inq := rest }
  | .setName name => some { s with bus := (s.bus.setName name).1 }
  | .send env msgtag peer msg => some { s with bus := (s.bus.send env msgtag peer msg).2.1 }

/-- What the event adds to the queue. -/
def Event.pushed : Event → Option SMsg
  | .push smsg => some smsg
  | _ => none

/-- The messages that arrive in a run, in their order. -/
def arrived (events : List Event) : List SMsg := events.filterMap Event.pushed

variable {s t : Inbox} {serverIP : IP} {serverPort : Port} {event : Event}
  {events : List Event} {smsgs : List SMsg}

/-- Of the messages that arrived, nothing deliverable is lost, made up, doubled or
overtaken, and what was handed out is what was in the messages. -/
structure Delivers (serverIP : IP) (serverPort : Port) (smsgs : List SMsg) (s : Inbox) :
    Prop where
  order : s.received.map Received.smsg ++ s.inq.filter (SMsg.Deliverable serverIP serverPort) =
    smsgs.filter (SMsg.Deliverable serverIP serverPort)
  content : ∀ r ∈ s.received, r.msgtag = r.smsg.msgtag ∧ r.msg = r.smsg.msg

/-- The invariant: the bus stays at its address and its contacts have ids. -/
structure Orderly (serverIP : IP) (serverPort : Port) (s : Inbox) : Prop where
  placed : s.bus.serverIP = serverIP ∧ s.bus.serverPort = serverPort
  sound : IndexesSound s.bus.scontacts s.bus.scontacts.heap.live
  counted : IdsCounted s.bus.scontacts

theorem orderly_start (mcsock : SocketType) :
    Orderly serverIP serverPort (start serverIP serverPort mcsock) where
  placed := ⟨rfl, rfl⟩
  sound := indexesSound_empty
  counted := idsCounted_empty

end Inbox

namespace SBus

variable {b b' : SBus} {env : StepEnv} {smsg : SMsg} {p : Ptr} {id peer : SBusPeer}
  {actions : List Action}

/-- A search for a name is not handed out, whether or not it is answered. -/
theorem handle_find (b : SBus) (env : StepEnv) (p : Ptr) (peer : SBusPeer)
    (find : smsg.msgtag = sbusFind) : (b.handle env smsg p peer).1 = -1 := by
  have system : sbusFind ≤ 0 := by decide
  unfold handle
  rw [find, if_pos system, if_pos rfl]
  split
  case isTrue own => rfl
  case isFalse other => rfl

/-- The sender of a message has an id that is not negative. -/
theorem senderId_nonneg (sound : IndexesSound b.scontacts b.scontacts.heap.live)
    (counted : IdsCounted b.scontacts) {e : CallEnv} (given : b.senderId e smsg = some id) :
    id ≥ 0 := by
  obtain ⟨⟨p, d⟩, found, rfl⟩ := Option.map_eq_some_iff.mp given
  obtain ⟨changes, _⟩ := sender_changes (fun _ _ _ => True) sound trivial (fun _ => trivial) found
  exact (counted.changes sound changes).ids p

/-- `processSMsg` returns a non-negative number exactly for the deliverable
messages. -/
theorem processSMsg_nonneg_iff (sound : IndexesSound b.scontacts b.scontacts.heap.live)
    (counted : IdsCounted b.scontacts) (call : b.processSMsg env smsg = some (id, b', actions)) :
    id ≥ 0 ↔ smsg.Deliverable b.serverIP b.serverPort := by
  have negative : ¬ (-1 : Int) ≥ 0 := by decide
  rcases processSMsg_cases call with ⟨lost, rfl, _⟩ | ⟨_, own, rfl, _⟩ |
    ⟨data, other, p, d, _, handled⟩
  · apply iff_of_false negative
    simp [SMsg.Deliverable, lost]
  · exact iff_of_false negative fun deliverable => deliverable.2.1 own
  · by_cases find : smsg.msgtag = sbusFind
    · have result := handle_find (d.touch env.lookup.now p) env p (d.scontacts.info p).peer find
      rw [handled] at result
      rw [show id = -1 from result]
      exact iff_of_false negative fun deliverable => deliverable.2.2 find
    · have given := processSMsg_peer data other find call
      exact iff_of_true (senderId_nonneg sound counted given) ⟨data, other, find⟩

end SBus

namespace Inbox

variable {s t : Inbox} {serverIP : IP} {serverPort : Port} {event : Event}
  {events : List Event} {smsgs : List SMsg}

/-- What a change of the contacts leaves in order. -/
theorem Orderly.changed {bus : SBus} {ok : IP → Port → SocketType → Prop}
    (orderly : s.Orderly serverIP serverPort)
    (changes : Changes ok s.bus.scontacts bus.scontacts)
    (same : bus = { s.bus with scontacts := bus.scontacts }) :
    Orderly serverIP serverPort { s with bus } where
  placed := by
    rw [same]
    exact orderly.placed
  sound := orderly.sound.changes changes
  counted := orderly.counted.changes orderly.sound changes

/-- A turn of the loop of `recv` waits for a message, or takes the one in front and
hands it out if it is deliverable. -/
theorem Orderly.turn (orderly : s.Orderly serverIP serverPort) {env : StepEnv}
    (taken : s.step (.turn env) = some t) :
    (s.inq = [] ∧ t = s) ∨ ∃ smsg rest bus, s.inq = smsg :: rest ∧
      t.Orderly serverIP serverPort ∧
      ((smsg.Deliverable serverIP serverPort ∧ ∃ peer, t = { s with
          bus, inq := rest
          received := s.received ++ [⟨smsg, smsg.msgtag, peer, smsg.msg⟩] }) ∨
        (¬ smsg.Deliverable serverIP serverPort ∧ t = { s with bus, inq := rest })) := by
  rw [step] at taken
  split at taken
  case h_1 idle => exact .inl ⟨idle, (Option.some.inj taken).symm⟩
  case h_2 smsg rest front =>
    obtain ⟨⟨peer, bus, actions⟩, processed, taken⟩ := Option.bind_eq_some_iff.mp taken
    obtain ⟨changes, same⟩ := SBus.processSMsg_any_changes orderly.sound processed
    have iff := SBus.processSMsg_nonneg_iff orderly.sound orderly.counted processed
    rw [orderly.placed.1, orderly.placed.2] at iff
    have after := orderly.changed changes same
    refine .inr ⟨smsg, rest, bus, front, ?_⟩
    dsimp only at taken
    split at taken
    case isTrue positive =>
      obtain rfl := Option.some.inj taken
      exact ⟨⟨after.placed, after.sound, after.counted⟩, .inl ⟨iff.mp positive, peer, rfl⟩⟩
    case isFalse negative =>
      obtain rfl := Option.some.inj taken
      exact ⟨⟨after.placed, after.sound, after.counted⟩, .inr ⟨mt iff.mpr negative, rfl⟩⟩

theorem Orderly.step (orderly : s.Orderly serverIP serverPort) (taken : s.step event = some t) :
    t.Orderly serverIP serverPort := by
  cases event with
  | push smsg =>
      obtain rfl := Option.some.inj taken
      exact ⟨orderly.placed, orderly.sound, orderly.counted⟩
  | turn env =>
      rcases orderly.turn taken with ⟨_, rfl⟩ | ⟨_, _, _, _, after, _⟩
      · exact orderly
      · exact after
  | setName name =>
      obtain rfl := Option.some.inj taken
      exact ⟨orderly.placed, orderly.sound, orderly.counted⟩
  | send env msgtag peer msg =>
      obtain rfl := Option.some.inj taken
      obtain ⟨changes, same⟩ := SBus.send_changes (b := s.bus) (fun _ _ _ => True)
        (fun _ _ _ _ => trivial) (rfl : s.bus.send env msgtag peer msg = (_, _, _))
      exact orderly.changed changes same

/-- The message in front was deliverable and is handed out. -/
theorem Delivers.hand_out {smsg : SMsg} {rest : List SMsg} {peer : SBusPeer} {bus : SBus}
    (delivers : s.Delivers serverIP serverPort smsgs) (front : s.inq = smsg :: rest)
    (deliverable : smsg.Deliverable serverIP serverPort) :
    Delivers serverIP serverPort smsgs { s with
      bus, inq := rest
      received := s.received ++ [⟨smsg, smsg.msgtag, peer, smsg.msg⟩] } where
  order := by
    have order := delivers.order
    rw [front, List.filter_cons_of_pos (by simpa using deliverable)] at order
    simpa using order
  content r mem := by
    rcases List.mem_append.mp mem with old | new
    · exact delivers.content r old
    · obtain rfl := List.mem_singleton.mp new
      exact ⟨rfl, rfl⟩

/-- The message in front was not deliverable and is dropped. -/
theorem Delivers.drop {smsg : SMsg} {rest : List SMsg} {bus : SBus}
    (delivers : s.Delivers serverIP serverPort smsgs) (front : s.inq = smsg :: rest)
    (kept : ¬ smsg.Deliverable serverIP serverPort) :
    Delivers serverIP serverPort smsgs { s with bus, inq := rest } where
  order := by
    have order := delivers.order
    rwa [front, List.filter_cons_of_neg (by simpa using kept)] at order
  content := delivers.content

/-- The messages an event adds are those to be delivered after it. -/
theorem Delivers.step (delivers : s.Delivers serverIP serverPort smsgs)
    (orderly : s.Orderly serverIP serverPort) (taken : s.step event = some t) :
    t.Delivers serverIP serverPort (smsgs ++ event.pushed.toList) := by
  cases event with
  | push smsg =>
      obtain rfl := Option.some.inj taken
      refine ⟨?_, delivers.content⟩
      show _ ++ (s.inq ++ [smsg]).filter _ = (smsgs ++ [smsg]).filter _
      rw [List.filter_append, List.filter_append, ← List.append_assoc, delivers.order]
  | turn env =>
      show t.Delivers serverIP serverPort (smsgs ++ [])
      rw [List.append_nil]
      rcases orderly.turn taken with ⟨_, rfl⟩ |
        ⟨_, _, _, front, _, ⟨deliverable, _, rfl⟩ | ⟨kept, rfl⟩⟩
      · exact delivers
      · exact delivers.hand_out front deliverable
      · exact delivers.drop front kept
  | setName name =>
      obtain rfl := Option.some.inj taken
      refine ⟨?_, delivers.content⟩
      show _ = (smsgs ++ []).filter _
      rw [List.append_nil, ← delivers.order]
  | send env msgtag peer msg =>
      obtain rfl := Option.some.inj taken
      refine ⟨?_, delivers.content⟩
      show _ = (smsgs ++ []).filter _
      rw [List.append_nil, ← delivers.order]

theorem Delivers.run (delivers : s.Delivers serverIP serverPort smsgs)
    (orderly : s.Orderly serverIP serverPort) (run : Run (Det Inbox.step) s events t) :
    t.Delivers serverIP serverPort (smsgs ++ arrived events) := by
  induction run generalizing smsgs with
  | nil => rwa [arrived, List.filterMap_nil, List.append_nil]
  | @cons s u t event events head _ ih =>
      have later := ih (delivers.step orderly head) (orderly.step head)
      have first : arrived (event :: events) = event.pushed.toList ++ arrived events := by
        cases event <;> rfl
      rwa [first, ← List.append_assoc]

/-- In every interleaving, what `recv` has returned followed by the deliverable
messages still in the queue are the deliverable ones of the messages that were pushed,
in their order and each once. -/
theorem delivered_in_order {mcsock : SocketType} {events : List Event}
    (run : Run (Det Inbox.step) (start serverIP serverPort mcsock) events s) :
    s.Delivers serverIP serverPort (arrived events) := by
  have nothing : (start serverIP serverPort mcsock).Delivers serverIP serverPort [] :=
    ⟨rfl, fun r mem => by cases mem⟩
  exact nothing.run (orderly_start mcsock) run

/-- Two user messages with a search for a name and an echo of its own between
them, one of them still in the queue. -/
theorem delivered_in_order_pending :
    ∃ s, Run (Det Inbox.step) (start 1 10 4)
      [.push ⟨5, 2, 20, 4, [65], false⟩, .push ⟨sbusFind, 2, 20, 4, [97], false⟩,
       .turn ⟨⟨10, 0, []⟩, ⟨10, 1, []⟩, ⟨⟨10, 2, []⟩, -1, 0⟩⟩,
       .push ⟨6, 1, 10, 4, [66], false⟩, .push ⟨7, 2, 20, 4, [67], false⟩,
       .turn ⟨⟨11, 0, []⟩, ⟨11, 1, []⟩, ⟨⟨11, 2, []⟩, -1, 0⟩⟩] s ∧
      s.Delivers 1 10 [⟨5, 2, 20, 4, [65], false⟩, ⟨sbusFind, 2, 20, 4, [97], false⟩,
        ⟨6, 1, 10, 4, [66], false⟩, ⟨7, 2, 20, 4, [67], false⟩] := by
  have run := run_det_iff.mpr
    (rfl : [Event.push ⟨5, 2, 20, 4, [65], false⟩, .push ⟨sbusFind, 2, 20, 4, [97], false⟩,
       .turn ⟨⟨10, 0, []⟩, ⟨10, 1, []⟩, ⟨⟨10, 2, []⟩, -1, 0⟩⟩,
       .push ⟨6, 1, 10, 4, [66], false⟩, .push ⟨7, 2, 20, 4, [67], false⟩,
       .turn ⟨⟨11, 0, []⟩, ⟨11, 1, []⟩, ⟨⟨11, 2, []⟩, -1, 0⟩⟩].foldlM Inbox.step
         (start 1 10 4) = some _)
  exact ⟨_, run, delivered_in_order run⟩

end Inbox

end LibSBus
