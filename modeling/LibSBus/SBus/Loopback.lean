import LibSBus.SMessenger.Listening
import LibSBus.SBus.Tags

/-!
What an instance created without a device hears of itself. The constructor takes
one address, the last of the list of interfaces, for the instance's own, while
the kernel puts the address of the interface a datagram leaves by on it. The
port agrees whatever happens: header and self test read the same field.
-/

namespace LibSBus

open Lib SContacts

/-- `MAX_EXPECTED_INTERFACES` -/
def maxExpectedInterfaces : Nat := 64

/-- `sockaddr_ips`. The entries end at the first without a name, and 64 of them leave
none in the array that `ioctl` fills. -/
def sockaddrIps (interfaces : List IP) : Option (List IP) :=
  if interfaces.length < maxExpectedInterfaces then some interfaces else none

/-- The address `SMessenger::SMessenger` takes for its own without a device. -/
def ownIP (interfaces : List IP) : Option IP := (sockaddrIps interfaces).bind List.getLast?

/-- The address `nextMsg` shows for a datagram from this one. -/
def shownSource (source : IP) : IP := if source = 0 then -1 else source

/-- An instance, with the datagrams it has sent. -/
structure Speaker where
  messenger : SMessenger
  bus : SBus
  sent : List CString

namespace Speaker

/-- `SBus::init` without a device. -/
def create (interfaces : List IP) (servsock : SocketType) (port : Port) (mcsock : SocketType) :
    Option Speaker := do
  let ip ← ownIP interfaces
  let messenger ← SMessenger.construct ip servsock port mcsock
  some { messenger, bus := SBus.init messenger.ip messenger.port messenger.mcsock, sent := [] }

/-- What the messenger is asked to send to all. The kernel takes the datagram or
not. -/
def perform (accepted : Bool) (s : Speaker) : Action → Option Speaker
  | .multicast msgtag msg =>
      (s.messenger.sendMulticast msgtag msg accepted).map fun (_, frame) =>
        { s with sent := s.sent ++ frame.toList }
  | .connect _ _ _ => some s
  | .unicast _ _ _ => some s

/-- A call of the application, a message that is processed, or a call of the
receiving thread. -/
inductive Event
  | setName (name : CString)
  | multicast (msgtag : Int) (msg : CString)
  | send (env : SendEnv) (msgtag : Int) (peer : SBusPeer) (msg : CString)
  | message (env : StepEnv) (smsg : SMsg)
  | receive (env : RecvEnv)

def step (s : Speaker) : Event × Bool → Option Speaker
  | (.setName name, accepted) =>
      let r := s.bus.setName name
      r.2.foldlM (perform accepted) { s with bus := r.1 }
  | (.multicast msgtag msg, accepted) => s.perform accepted (.multicast msgtag msg)
  | (.send env msgtag peer msg, accepted) =>
      let r := s.bus.send env msgtag peer msg
      r.2.2.foldlM (perform accepted) { s with bus := r.2.1 }
  | (.message env smsg, accepted) => do
      let (_, bus, actions) ← s.bus.processSMsg env smsg
      actions.foldlM (perform accepted) { s with bus }
  | (.receive env, _) =>
      let messenger := (s.messenger.recv env).2
      some { s with messenger, bus := { s.bus with mcsock := messenger.mcsock } }

/-- A datagram of the instance that comes back from this address is read as a
message, and processing that changes nothing and asks for nothing. -/
def Recognises (s : Speaker) (source : IP) (frame : CString) : Prop :=
  ∀ wire rest late later env,
    ∃ smsg, (nextMsg maxDatalen (.dgram wire (⟨source, frame⟩ :: rest)) late later).1.smsg
        s.messenger.mcsock = some smsg ∧
      s.bus.processSMsg env smsg = some (-1, s.bus, [])

variable {s t : Speaker} {ip source : IP} {port : Port} {event : Event × Bool}

/-- An instance of a host with two interfaces. -/
def onTwoInterfaces : Speaker :=
  { messenger :=
      { servsock := 3, mcsock := 4, ip := 2, port := 10, spoll := [4]
        sock := Function.update (fun _ => .closed) 4 (.dgram [] []) }
    bus := SBus.init 2 10 4
    sent := [] }

/-- Its announcement comes back from the first interface, is taken for that of a peer
and answered. -/
theorem announcement_not_recognised :
    ¬ ∀ interfaces source servsock port mcsock s, source ∈ interfaces →
      create interfaces servsock port mcsock = some s → ∀ events t,
      Run (Det step) s events t → ∀ frame ∈ t.sent, t.Recognises source frame := by
  intro always
  have run := run_det_iff.mpr (rfl : [(Event.setName [97], true)].foldlM step onTwoInterfaces =
    some { onTwoInterfaces with
      bus := { onTwoInterfaces.bus with name := [97] }
      sent := [[255, 255, 0, 10, 0, 0, 0, 1, 97]] })
  obtain ⟨smsg, read, dropped⟩ := always [1, 2] 1 3 10 4 onTwoInterfaces (by decide) rfl _ _ run _
    List.mem_cons_self [] [] 0 0 ⟨⟨10, 0, []⟩, ⟨10, 1, []⟩, ⟨⟨10, 2, []⟩, 5, 0⟩⟩
  obtain rfl := Option.some.inj read
  have answers := congrArg (Option.map fun result => result.2.2) dropped
  exact absurd answers (by decide)

/-- The invariant: the instance stays at its address, its contacts are in order, and
all it has sent are frames with its port. -/
structure Placed (ip : IP) (port : Port) (s : Speaker) : Prop where
  announced : s.messenger.port = port
  address : s.bus.serverIP = ip ∧ s.bus.serverPort = port
  sound : IndexesSound s.bus.scontacts s.bus.scontacts.heap.live
  frames : ∀ frame ∈ s.sent, ∃ f : Frame, frame = f.encode ∧ f.port = port

theorem Placed.perform {accepted : Bool} {action : Action} (placed : Placed ip port s)
    (done : s.perform accepted action = some t) : Placed ip port t := by
  cases action with
  | connect ip port fd =>
      obtain rfl := Option.some.inj done
      exact placed
  | unicast msgtag socket msg =>
      obtain rfl := Option.some.inj done
      exact placed
  | multicast msgtag msg =>
      obtain ⟨⟨ret, frame⟩, call, rfl⟩ := Option.map_eq_some_iff.mp done
      refine ⟨placed.announced, placed.address, placed.sound, fun x member => ?_⟩
      rcases List.mem_append.mp member with old | new
      · exact placed.frames x old
      · obtain rfl := Option.mem_toList.mp new
        let c : SendCall := { msgtag, msg, accepts := none }
        obtain ⟨small, rfl⟩ := sendMulticast_offered (c := c) call
        obtain ⟨f, whole, _, own⟩ := offered_encode s.messenger.port c small
        exact ⟨f, whole, own.trans placed.announced⟩

theorem Placed.performs {accepted : Bool} {actions : List Action} (placed : Placed ip port s)
    (done : actions.foldlM (Speaker.perform accepted) s = some t) : Placed ip port t := by
  induction actions generalizing s with
  | nil =>
      obtain rfl := Option.some.inj done
      exact placed
  | cons action actions ih =>
      rw [List.foldlM_cons] at done
      obtain ⟨u, first, rest⟩ := Option.bind_eq_some_iff.mp done
      exact ih (placed.perform first) rest

theorem Placed.changed {bus : SBus} {ok : IP → Port → SocketType → Prop}
    (placed : Placed ip port s) (changes : Changes ok s.bus.scontacts bus.scontacts)
    (same : bus = { s.bus with scontacts := bus.scontacts }) :
    Placed ip port { s with bus } where
  announced := placed.announced
  address := by
    rw [same]
    exact placed.address
  sound := placed.sound.changes changes
  frames := placed.frames

theorem Placed.step (placed : Placed ip port s) (taken : s.step event = some t) :
    Placed ip port t := by
  obtain ⟨event, accepted⟩ := event
  cases event with
  | setName name =>
      have renamed : Placed ip port { s with bus := (s.bus.setName name).1 } :=
        ⟨placed.announced, placed.address, placed.sound, placed.frames⟩
      exact renamed.performs taken
  | multicast msgtag msg =>
      have done : s.perform accepted (.multicast msgtag msg) = some t := taken
      exact placed.perform done
  | send env msgtag peer msg =>
      obtain ⟨changes, same⟩ := SBus.send_changes (b := s.bus) (fun _ _ _ => True)
        (fun _ _ _ _ => trivial) (rfl : s.bus.send env msgtag peer msg = (_, _, _))
      exact (placed.changed changes same).performs taken
  | message env smsg =>
      obtain ⟨⟨peer, bus, actions⟩, processed, rest⟩ := Option.bind_eq_some_iff.mp taken
      obtain ⟨changes, same⟩ := SBus.processSMsg_any_changes placed.sound processed
      exact (placed.changed changes same).performs rest
  | receive env =>
      obtain rfl := Option.some.inj taken
      exact ⟨(SMessenger.recv_port s.messenger env).trans placed.announced, placed.address,
        placed.sound, placed.frames⟩

/-- What the constructor makes. -/
theorem create_eq_some {interfaces : List IP} {servsock mcsock : SocketType}
    (own : ownIP interfaces = some ip) (made : create interfaces servsock port mcsock = some s) :
    s.messenger.port = port ∧ s.bus = SBus.init ip port mcsock ∧ s.sent = [] := by
  obtain ⟨_, given, rest⟩ := Option.bind_eq_some_iff.mp made
  obtain rfl := Option.some.inj (own.symm.trans given)
  obtain ⟨messenger, built, rest⟩ := Option.bind_eq_some_iff.mp rest
  obtain rfl := Option.some.inj rest
  obtain ⟨_, built⟩ := Option.ite_none_left_eq_some.mp built
  obtain ⟨_, built⟩ := Option.ite_none_left_eq_some.mp built
  obtain rfl := Option.some.inj built
  exact ⟨rfl, rfl, rfl⟩

theorem placed_create {interfaces : List IP} {servsock mcsock : SocketType}
    (own : ownIP interfaces = some ip) (made : create interfaces servsock port mcsock = some s) :
    Placed ip port s := by
  obtain ⟨announced, bus, sent⟩ := create_eq_some own made
  refine ⟨announced, ?_, ?_, ?_⟩
  · rw [bus]
    exact ⟨rfl, rfl⟩
  · rw [bus]
    exact indexesSound_empty
  · rw [sent]
    exact fun frame member => by cases member

/-- What comes back from the address the instance takes for its own is recognised. -/
theorem Placed.recognises (placed : Placed ip port s) {frame : CString} (member : frame ∈ s.sent)
    (shown : shownSource source = ip) : s.Recognises source frame := by
  intro wire rest late later env
  obtain ⟨f, rfl, own⟩ := placed.frames frame member
  rw [nextMsg_dgram_frame]
  refine ⟨_, rfl, ?_⟩
  rw [SBus.processSMsg, if_neg (by simp), if_pos]
  exact ⟨shown.trans placed.address.1.symm, own.trans placed.address.2.symm⟩

/-- For an instance created without a device, all that it sends and that comes back
from an address is recognised in every run, if and only if the address it shows is
the last one of the list. -/
theorem recognises_iff {interfaces : List IP} {servsock mcsock : SocketType}
    (own : ownIP interfaces = some ip) (made : create interfaces servsock port mcsock = some s)
    (source : IP) :
    (∀ events t, Run (Det step) s events t → ∀ frame ∈ t.sent, t.Recognises source frame) ↔
      shownSource source = ip := by
  have start := placed_create own made
  constructor
  · intro recognises
    by_contra elsewhere
    obtain ⟨f, whole, tag, _⟩ :=
      offered_encode s.messenger.port { msgtag := sbusManameis, msg := [], accepts := none }
        (by decide)
    have call : s.messenger.sendMulticast sbusManameis [] true = some (0, some f.encode) := by
      rw [← whole]
      rfl
    obtain ⟨t, taken, bus, sent⟩ : ∃ t, s.step (.setName [], true) = some t ∧
        t.bus = { SBus.init ip port mcsock with name := [] } ∧ f.encode ∈ t.sent := by
      refine ⟨{ s with bus := { s.bus with name := [] }, sent := s.sent ++ [f.encode] }, ?_, ?_,
        List.mem_append_right _ List.mem_cons_self⟩
      · simp [step, SBus.setName, perform, call]
      · rw [(create_eq_some own made).2.1]
    obtain ⟨smsg, read, dropped⟩ := recognises _ t (.cons taken (.nil t)) _ sent [] [] 0 0
      Inbox.quietStep
    rw [nextMsg_dgram_frame] at read
    obtain rfl := Option.some.inj read
    rw [bus] at dropped
    have ignored := (SBus.processSMsg_nonneg_iff indexesSound_empty idsCounted_empty dropped).not.mp
      (by decide)
    apply ignored
    refine ⟨rfl, fun own => elsewhere own.1, ?_⟩
    show f.msgtag ≠ sbusFind
    rw [tag]
    decide
  · intro shown events t run frame member
    have placed := run.invariant start fun _ _ _ placed taken => Placed.step placed taken
    exact placed.recognises member shown

/-- An instance whose datagrams leave by the interface that is listed last. -/
theorem recognises_iff_last :
    create [1, 2] 3 10 4 = some onTwoInterfaces ∧
      ∀ events t, Run (Det step) onTwoInterfaces events t →
        ∀ frame ∈ t.sent, t.Recognises 2 frame :=
  ⟨rfl, (recognises_iff (rfl : ownIP [1, 2] = some 2)
    (rfl : create [1, 2] 3 10 4 = some onTwoInterfaces) 2).mpr (by decide)⟩

end Speaker

end LibSBus
