import LibSBus.SMessenger.Frames
import LibSBus.SMessenger.Recv

/-!
The port that is announced. The header of a multicast frame carries `port`, where
a receiver will connect to. The constructor reads it from the server socket, but
the error path of `listenConn`, which opens another server socket, does not read
it again. The kernel chooses a new port then, so that the frames announce one
nobody listens on, unless by chance it is the same.
-/

namespace LibSBus

open Lib

/-- Where a frame says its sender listens. -/
def headerPort (frame : CString) : Port := (unpackhdr (frame.take hdrlen)).2.1

/-- The port the server socket listens on after it was polled; `fresh` is the one
the kernel gives to a new socket. -/
def Listen.portAfter (listening : Option Port) (fresh : Port) : Listen → Option Port
  | .broken reopened => reopened.map fun _ => fresh
  | .idle => listening
  | .incoming _ => listening

/-- A messenger with the port its server socket listens on, if it has one, and the
multicast frames it has sent, each with that port at the time. -/
structure Announcer where
  messenger : SMessenger
  listening : Option Port
  sent : List (CString × Option Port)

namespace Announcer

/-- A unicast send and a `connect` change nothing here. -/
inductive Event
  | recv (env : RecvEnv) (fresh : Port)
  | send (msgtag : Int) (msg : CString) (accepted : Bool)

def start (m : SMessenger) : Announcer :=
  { messenger := m, listening := some m.port, sent := [] }

def step (s : Announcer) : Event → Option Announcer
  | .recv env fresh =>
      some { s with
        messenger := (s.messenger.recv env).2
        listening := env.listen.portAfter s.listening fresh }
  | .send msgtag msg accepted =>
      (s.messenger.sendMulticast msgtag msg accepted).map fun (_, frame) =>
        { s with sent := s.sent ++ frame.toList.map fun frame => (frame, s.listening) }

/-- Each frame carries the port that was listened on. -/
def AnnouncesListening (s : Announcer) : Prop := ∀ f ∈ s.sent, f.2 = some (headerPort f.1)

instance (s : Announcer) : Decidable s.AnnouncesListening :=
  inferInstanceAs (Decidable (∀ _ ∈ _, _))

/-- The server socket breaks and is opened again on another port. -/
theorem announces_old_port :
    ¬ ∀ ip servsock port mcsock m, SMessenger.construct ip servsock port mcsock = some m →
      ∀ events s, Run (Det step) (start m) events s → s.AnnouncesListening := by
  intro always
  obtain ⟨m, s, made, run, wrong⟩ : ∃ m s, SMessenger.construct 1 3 10 4 = some m ∧
      Run (Det step) (start m)
        [.recv ⟨.broken (some 3), []⟩ 11, .send 5 [65] true] s ∧ ¬ s.AnnouncesListening :=
    ⟨_, _, rfl, run_det_iff.mpr rfl, by decide +kernel⟩
  exact wrong (always 1 3 10 4 m made _ s run)

/-- A frame is sent: the message is not too big, and `sendto` takes it. -/
def Transmits (msg : CString) (accepted : Bool) : Prop :=
  toInt msg.length ≤ maxDatalen ∧ accepted = true

instance (msg : CString) (accepted : Bool) : Decidable (Transmits msg accepted) :=
  inferInstanceAs (Decidable (_ ∧ _))

/-- Whenever a frame is sent, the server socket is still the first one or was
opened, the last time, on the port of the first one. -/
def SendsOnPort (first : Port) : Option Port → List Event → Prop
  | _, [] => True
  | listening, .recv env fresh :: events =>
      SendsOnPort first (env.listen.portAfter listening fresh) events
  | listening, .send _ msg accepted :: events =>
      (Transmits msg accepted → listening = some first) ∧ SendsOnPort first listening events

end Announcer

namespace SMessenger

variable {m : SMessenger}

theorem visit_port (m : SMessenger) (fd : SocketType) (look : Look) :
    (m.visit fd look).2.port = m.port := by
  have handled : ∀ (m : SMessenger) reopened,
      (m.socketErrorHandling fd reopened).port = m.port := by
    intro m reopened
    unfold socketErrorHandling
    split
    · cases reopened <;> rfl
    · rfl
  unfold visit
  dsimp only
  split
  · split
    · exact handled _ _
    · split
      · split
        · exact handled _ _
        · rfl
        · split <;> rfl
      · rfl
  · rfl

/-- No call of `recv` changes the port that is announced. -/
theorem recv_port (m : SMessenger) (env : RecvEnv) : (m.recv env).2.port = m.port := by
  have listened : (m.listenConn env.listen).2.port = m.port := by
    unfold listenConn
    split
    · rfl
    · unfold initServer
      split <;> rfl
    · rfl
    · rfl
  unfold recv
  split
  next res m' eq =>
    rw [eq] at listened
    split
    · exact listened
    · exact polls_keeps (I := fun m' => m'.port = m.port)
        (fun m' fd look same => (visit_port m' fd look).trans same) env.passes listened

/-- What is sent carries the port of the messenger. -/
theorem sendMulticast_cases {msgtag ret : Int} {msg : CString} {accepted : Bool}
    {frame : Option CString} (call : m.sendMulticast msgtag msg accepted = some (ret, frame)) :
    (¬ Announcer.Transmits msg accepted ∧ frame = none) ∨
      (Announcer.Transmits msg accepted ∧ ∃ buf, frame = some buf ∧ headerPort buf = m.port) := by
  unfold sendMulticast at call
  dsimp only at call
  split at call
  case isTrue big =>
    obtain ⟨_, rfl⟩ := Prod.mk.inj (Option.some.inj call)
    exact .inl ⟨fun transmits => absurd transmits.1 (Int.not_le.mpr big), rfl⟩
  case isFalse small =>
    split at call
    case isTrue negative => cases call
    case isFalse positive =>
      split at call
      case isTrue taken =>
        obtain ⟨_, rfl⟩ := Prod.mk.inj (Option.some.inj call)
        refine .inr ⟨⟨Int.not_lt.mp small, taken⟩, _, rfl, ?_⟩
        have header := length_packhdr (toShort msgtag) m.port (toInt msg.length)
        rw [headerPort, List.take_append_of_le_length (by rw [header]),
          List.take_of_length_le (by rw [header]), unpackhdr_packhdr]
      case isFalse refused =>
        obtain ⟨_, rfl⟩ := Prod.mk.inj (Option.some.inj call)
        exact .inl ⟨fun transmits => refused transmits.2, rfl⟩

end SMessenger

namespace Announcer

variable {s t : Announcer} {events : List Event} {first : Port}

/-- A frame is sent in addition, or none. -/
theorem announces_append_iff (s : Announcer) (frame : Option CString) :
    AnnouncesListening
        { s with sent := s.sent ++ frame.toList.map fun frame => (frame, s.listening) } ↔
      s.AnnouncesListening ∧ ∀ buf ∈ frame, s.listening = some (headerPort buf) := by
  unfold AnnouncesListening
  rw [List.forall_mem_append]
  cases frame <;> simp

theorem announces_iff_from (port : s.messenger.port = first)
    (run : Run (Det step) s events t) :
    t.AnnouncesListening ↔ s.AnnouncesListening ∧ SendsOnPort first s.listening events := by
  induction run with
  | nil s => exact (and_iff_left trivial).symm
  | @cons s u t event events head _ ih =>
      cases event with
      | recv env fresh =>
          obtain rfl := Option.some.inj head
          exact ih ((SMessenger.recv_port _ env).trans port)
      | send msgtag msg accepted =>
          obtain ⟨⟨ret, frame⟩, sent, rfl⟩ := Option.map_eq_some_iff.mp head
          have here : (∀ buf ∈ frame, s.listening = some (headerPort buf)) ↔
              (Transmits msg accepted → s.listening = some first) := by
            rcases SMessenger.sendMulticast_cases sent with ⟨quiet, rfl⟩ |
              ⟨transmits, buf, rfl, header⟩
            · simp [quiet]
            · rw [port] at header
              simp [transmits, header]
          rw [ih port, SendsOnPort, ← and_assoc, announces_append_iff, here]

/-- In a run from the constructor every multicast frame carries the port that is
listened on if and only if each is sent on the first server socket or on one
that was opened on its port. -/
theorem announces_iff {ip : IP} {servsock mcsock : SocketType} {port : Port} {m : SMessenger}
    (made : SMessenger.construct ip servsock port mcsock = some m)
    (run : Run (Det step) (start m) events s) :
    s.AnnouncesListening ↔ SendsOnPort port (some port) events := by
  have same : m.port = port := by
    unfold SMessenger.construct at made
    obtain ⟨_, made⟩ := Option.ite_none_left_eq_some.mp made
    obtain ⟨_, made⟩ := Option.ite_none_left_eq_some.mp made
    exact Option.some.inj made ▸ rfl
  have iff := announces_iff_from same run
  rw [start, same] at iff
  rw [iff]
  apply and_iff_right
  intro f mem
  cases mem

/-- The server socket is opened again on its old port between two frames. -/
theorem announces_iff_same_port :
    ∃ m s, SMessenger.construct 1 3 10 4 = some m ∧
      Run (Det step) (start m)
        [.send 5 [65] true, .recv ⟨.broken (some 3), []⟩ 10, .send 5 [66] true] s ∧
      (s.AnnouncesListening ↔ SendsOnPort 10 (some 10)
        [.send 5 [65] true, .recv ⟨.broken (some 3), []⟩ 10, .send 5 [66] true]) := by
  obtain ⟨m, s, made, run⟩ : ∃ m s, SMessenger.construct 1 3 10 4 = some m ∧
      Run (Det step) (start m)
        [.send 5 [65] true, .recv ⟨.broken (some 3), []⟩ 10, .send 5 [66] true] s :=
    ⟨_, _, rfl, run_det_iff.mpr rfl⟩
  exact ⟨m, s, made, run, announces_iff made run⟩

end Announcer

end LibSBus
