import LibSBus.SBus.Node
import LibSBus.SMessenger.Lengths

/-!
Two instances and a connection between them. What one of them writes on it reaches the
other as TCP brings it: at any moment an initial part of the bytes has come. On the way
from `send` at one end to `recv` at the other a message is a frame on a stream, a part of
a buffer, a message in the queue and then what `processSMsg` makes of it, and both ends do
many other things meanwhile.

The kernel is taken to accept a message whole or not at all: after a part of one, the rest
of the stream would be read as something else.
-/

namespace LibSBus

open Lib SContacts

/-- The kernel takes all of a message on a connection or nothing of it, and its length is
an `int`. -/
def Kernel.Takes (kernel : Kernel) (msg : CString) : Prop :=
  msg.length < 2 ^ 31 ∧ ∀ n ∈ kernel.accepts, n = 0 ∨ hdrlen + msg.length ≤ n

instance (kernel : Kernel) (msg : CString) : Decidable (kernel.Takes msg) :=
  inferInstanceAs (Decidable (_ ∧ _))

/-- Then a send writes a frame, or fails and writes nothing. -/
theorem sendUnicast_frame {port : Port} {msgtag ret : Int} {msg stream stream' : CString}
    {kernel : Kernel} (takes : kernel.Takes msg)
    (call : sendUnicast port msgtag msg kernel.accepts stream = some (ret, stream')) :
    (ret ≠ 0 ∧ stream' = stream) ∨
      (ret = 0 ∧ ∃ f : Frame, stream' = stream ++ f.encode ∧
        f.triple = (toShort msgtag, port, msg)) := by
  obtain ⟨int, whole⟩ := takes
  have length : toInt msg.length = msg.length := by
    rw [toInt_eq, Nat.mod_eq_of_lt (by omega), if_pos int]
  by_cases big : toInt msg.length > maxDatalen
  · rw [sendUnicast, if_pos big] at call
    obtain ⟨rfl, rfl⟩ := Prod.mk.inj (Option.some.inj call)
    exact .inl ⟨by decide, rfl⟩
  have small : (msg.length : Int) ≤ maxDatalen := length ▸ Int.not_lt.mp big
  let c : SendCall := { msgtag, msg, accepts := kernel.accepts }
  have offered : Sending.offered port c = packhdr (toShort msgtag) port msg.length ++ msg := by
    simp [Sending.offered, c, packhdr_toShort, length]
  have size : (Sending.offered port c).length = hdrlen + msg.length := by
    rw [Sending.length_offered, length, Int.toNat_natCast]
  rw [show sendUnicast port msgtag msg kernel.accepts stream =
    sendUnicast port c.msgtag c.msg c.accepts stream from rfl,
    Sending.sendUnicast_eq (by rw [length]; omega)] at call
  cases accepts : kernel.accepts with
  | none =>
      rw [show c.accepts = none from accepts] at call
      obtain ⟨rfl, rfl⟩ := Prod.mk.inj (Option.some.inj call)
      exact .inl ⟨by decide, rfl⟩
  | some n =>
      rw [show c.accepts = some n from accepts] at call
      dsimp only at call
      rw [size] at call
      split at call
      case isTrue part =>
        obtain ⟨rfl, rfl⟩ := Prod.mk.inj (Option.some.inj call)
        have nothing : n = 0 := (whole n accepts).resolve_right (Nat.not_le.mpr part)
        exact .inl ⟨by decide, by simp [nothing]⟩
      case isFalse all =>
        obtain ⟨rfl, rfl⟩ := Prod.mk.inj (Option.some.inj call)
        let f : Frame :=
          { msgtag := toShort msgtag, port, data := msg
            tag_fits := short_bounds (BitVec.ofInt 16 msgtag), data_fits := small }
        exact .inr ⟨rfl, f, by rw [offered]; rfl, rfl⟩

namespace SBus

variable {b b' : SBus} {env : StepEnv} {smsg : SMsg} {id peer : SBusPeer} {actions : List Action}
  {socket : SocketType} {msgtag tag res : Int} {msg text : CString} {e : SendEnv}

/-- A send writes nothing but its message to a connection. -/
theorem send_unicast (call : b.send e msgtag peer msg = (res, b', actions))
    (mem : .unicast tag socket text ∈ actions) : text = msg := by
  rcases send_cases e msgtag msg call with ⟨_, _, rfl⟩ | ⟨p, _, ⟨_, _, rfl⟩ | ⟨_, _, _, _, rfl⟩ |
    ⟨_, _, _, _, rfl⟩ | ⟨_, _, _, rfl⟩⟩
  · cases mem
  · simp only [List.mem_singleton, Action.unicast.injEq] at mem
    exact mem.2.2
  · simp only [List.mem_cons, List.not_mem_nil, or_false, reduceCtorEq, false_or,
      Action.unicast.injEq] at mem
    exact mem.2.2
  · simp at mem
  · split at mem <;> simp at mem

/-- What `processSMsg` answers by itself is the name of the bus. -/
theorem processSMsg_unicast (call : b.processSMsg env smsg = some (id, b', actions))
    (mem : .unicast tag socket text ∈ actions) : text = b.name := by
  rcases processSMsg_cases call with ⟨_, _, _, rfl⟩ | ⟨_, _, _, _, rfl⟩ |
    ⟨_, _, p, d, found, handled⟩
  · cases mem
  · cases mem
  · rcases handle_cases handled with ⟨_, _, rfl⟩ | ⟨_, _, _, sent⟩
    · cases mem
    · have name : d.name = b.name := by
        rcases sender_cases found with ⟨_, rfl⟩ | ⟨_, _, rfl⟩ | ⟨_, _, _, rfl⟩ |
          ⟨_, _, _, _, _, rfl⟩
        · rfl
        · split <;> rfl
        · rfl
        · rfl
      exact (send_unicast sent mem).trans name

end SBus

/-- What was written on a connection are the frames of the sends that succeeded. -/
def Conn.Sends (c : Conn) : Prop :=
  ∃ frames : List Frame, c.wrote = framing.encodeAll frames ∧
    frames.map Frame.triple = c.sent.map cut ∧ ∀ f ∈ frames, f.port = c.localPort

namespace Node

variable {n n' a b : Node} {k j : Nat} {event : Event} {kernel : Kernel} {sent ret msgtag : Int}
  {action : Action} {actions : List Action} {msg wrote : CString}

/-- All that the event has written on a connection is taken whole or not at all. -/
def Whole (n : Node) : Event → Prop
  | .send _ _ _ msg kernel => kernel.Takes msg
  | .turn _ kernel => kernel.Takes n.bus.name
  | _ => True

instance (n : Node) : (event : Event) → Decidable (n.Whole event)
  | .send _ _ _ msg kernel => inferInstanceAs (Decidable (kernel.Takes msg))
  | .turn _ kernel => inferInstanceAs (Decidable (kernel.Takes n.bus.name))
  | .poll _ _ => .isTrue trivial
  | .push => .isTrue trivial
  | .setName _ _ => .isTrue trivial
  | .multicast _ _ _ => .isTrue trivial
  | .others _ _ _ _ => .isTrue trivial

/-- The messenger writes only what the kernel takes whole or not at all. -/
def Carries (kernel : Kernel) : Action → Prop
  | .unicast _ _ msg => kernel.Takes msg
  | _ => True

theorem sends_sending (sends : ∀ j, (n.conn j).Sends) (takes : kernel.Takes msg)
    (call : sendUnicast (n.conn k).localPort msgtag msg kernel.accepts (n.conn k).wrote =
      some (ret, wrote)) (j : Nat) :
    ((n.sending k (msgtag, msg) ret wrote).conn j).Sends := by
  by_cases here : j = k
  swap
  · rw [sending_conn_ne n here]
    exact sends j
  subst here
  rw [sending_conn_self]
  obtain ⟨frames, before, triples, ports⟩ := sends j
  rcases sendUnicast_frame takes call with ⟨failed, rfl⟩ | ⟨rfl, f, rfl, triple⟩
  · refine ⟨frames, before, ?_, ports⟩
    dsimp only
    rw [if_neg failed, triples]
  · refine ⟨frames ++ [f], ?_, ?_, fun g mem => ?_⟩
    · rw [framing.encodeAll_append, before]
      exact congrArg _ (List.append_nil _).symm
    · dsimp only
      rw [if_pos rfl, List.map_append, triples, List.map_singleton, triple, List.map_append]
      rfl
    · rcases List.mem_append.mp mem with old | new
      · exact ports g old
      · obtain rfl := List.mem_singleton.mp new
        exact congrArg (fun t : Int × Port × CString => t.2.1) triple

theorem sends_opening (sends : ∀ j, (n.conn j).Sends) (port : Port)
    (connection : Option (SocketType × Sock)) (j : Nat) :
    ((n.opening port connection).conn j).Sends := by
  by_cases new : j = n.conns
  · cases connection with
    | none => exact sends j
    | some connection =>
        obtain ⟨x, s⟩ := connection
        rw [new, opening_conn_self]
        exact ⟨[], rfl, rfl, fun f mem => by cases mem⟩
  · rw [opening_conn _ _ _ new]
    exact sends j

theorem sends_hearing (sends : ∀ j, (n.conn j).Sends) (fd : SocketType) (bytes : CString)
    (j : Nat) : ((n.hearing fd bytes).conn j).Sends := by
  rw [hearing_conn]
  split <;> exact sends j

theorem sends_perform (sends : ∀ j, (n.conn j).Sends) (carries : Carries kernel action)
    (call : n.perform kernel sent action = some n') (j : Nat) : (n'.conn j).Sends := by
  rcases perform_cases call with rfl | ⟨_, _, _, _, _, rfl⟩ |
    ⟨_, _, _, _, _, _, rfl, written, rfl⟩
  · exact sends j
  · exact sends_opening sends _ _ j
  · exact sends_sending sends carries written j

theorem sends_performs (sends : ∀ j, (n.conn j).Sends)
    (carries : ∀ action ∈ actions, Carries kernel action)
    (call : actions.foldlM (Node.perform kernel sent) n = some n') : ∀ j, (n'.conn j).Sends := by
  have run := run_det_iff.mpr call
  have each := (eachStep_of_forall (P := fun _ _ => True) (fun _ _ => trivial) n actions
    : EachStep (Det (Node.perform kernel sent)) _ n actions).with_labels carries
  exact run.guarded_invariant sends each fun _ _ _ sends carries => sends_perform sends carries.1

theorem sends_step (sends : ∀ j, (n.conn j).Sends) (whole : n.Whole event)
    (taken : n.step event = some n') : ∀ j, (n'.conn j).Sends := by
  cases event with
  | poll env localPort =>
      obtain ⟨_, _, _, rfl⟩ := poll_cases taken
      exact sends_opening sends _ _
  | push =>
      obtain rfl := Option.some.inj taken
      exact sends
  | turn env kernel =>
      rcases turn_cases taken with rfl | ⟨q, rest, peer, bus, actions, _, processed, taken⟩
      · exact sends
      · refine sends_performs (n := { n with bus, inq := rest, taken := n.taken ++ [(q, peer)] })
          sends (fun action mem => ?_) taken
        cases action with
        | unicast tag socket text =>
            have answer : text = n.bus.name := SBus.processSMsg_unicast processed mem
            exact answer ▸ whole
        | connect ip port fd => trivial
        | multicast tag text => trivial
  | setName name kernel =>
      refine sends_performs (n := { n with bus := (n.bus.setName name).1 }) sends
        (fun action mem => ?_) taken
      obtain rfl := List.mem_singleton.mp mem
      trivial
  | multicast msgtag msg kernel => exact multicast_same taken ▸ sends
  | send env msgtag peer msg kernel =>
      rcases asked : n.bus.send env msgtag peer msg with ⟨ret, bus, actions⟩
      rw [Node.step, asked] at taken
      refine sends_performs (n := { n with bus }) sends (fun action mem => ?_) taken
      cases action with
      | unicast tag socket text =>
          have own : text = msg := SBus.send_unicast asked mem
          exact own ▸ whole
      | connect ip port fd => trivial
      | multicast tag text => trivial
  | others fd bytes datagrams closes =>
      obtain rfl := Option.some.inj taken
      exact sends_hearing sends fd bytes

/-- On every connection, in every run. -/
theorem sends_run {ip : IP} {servsock mcsock : SocketType} {port : Port} {stack : Nat}
    {start : Node} {events : List Event}
    (made : init ip servsock port mcsock stack = some start)
    (run : Run (Det step) start events a) (whole : EachStep (Det step) Whole start events) :
    ∀ k, (a.conn k).Sends := by
  refine run.guarded_invariant ?_ whole fun _ _ _ => sends_step
  obtain ⟨_, _, rfl⟩ := Option.map_eq_some_iff.mp made
  exact fun k => ⟨[], rfl, rfl, fun f mem => by cases mem⟩

/-- The application's view of the messages that show a port which, with their ip, is not
the address of the instance. -/
theorem filter_deliverable {frames : List Frame} {remote ip : IP} {port shown : Port}
    {fd : SocketType} (ports : ∀ f ∈ frames, f.port = shown)
    (other : ¬ (remote = ip ∧ shown = port)) :
    ((frames.map (Frame.toSMsg remote fd)).filter (SMsg.Deliverable ip port)).map SMsg.triple =
      (frames.map Frame.triple).filter fun t => t.1 ≠ sbusFind := by
  rw [List.filter_map, List.map_map, List.filter_map]
  have same : frames.filter ((fun m => decide (SMsg.Deliverable ip port m)) ∘
      Frame.toSMsg remote fd) = frames.filter ((fun t => decide (t.1 ≠ sbusFind)) ∘
        Frame.triple) := by
    apply List.filter_congr
    intro f mem
    simp only [Function.comp_apply, SMsg.Deliverable, Frame.toSMsg,
      Frame.triple, ports f mem, other, not_false_eq_true, true_and]
  rw [same]
  rfl

/-- Two instances, each in any run of its own, and a connection. On all its connections the
kernel of the first takes messages whole or not at all, and at any moment the second has got
an initial part of what the first has written. What `recv` of the second has returned of it,
or will return of what is on its way, are the messages of the first sends that succeeded on
it, with their tags cut to sixteen bits and without the searches for names: in their order,
each once, unchanged. When all bytes have come, have been read and the connection is open,
they are the messages of all of them. -/
theorem end_to_end {ip ip' : IP} {servsock servsock' mcsock mcsock' : SocketType}
    {port port' : Port} {stack stack' : Nat} {start start' : Node} {events events' : List Event}
    (made : init ip servsock port mcsock stack = some start)
    (run : Run (Det step) start events a) (whole : EachStep (Det step) Whole start events)
    (made' : init ip' servsock' port' mcsock' stack' = some start')
    (run' : Run (Det step) start' events' b) (old : j < b.conns)
    (arrived : (b.conn j).written <+: (a.conn k).wrote)
    (other : ¬ ((b.conn j).remote = ip' ∧ (a.conn k).localPort = port')) :
    ∃ got, got <+: (a.conn k).sent ∧
      (b.returned j ++ (b.queued j).filter (SMsg.Deliverable ip' port')).map SMsg.triple =
        (got.map cut).filter (fun t => t.1 ≠ sbusFind) ∧
      ((b.conn j).written = (a.conn k).wrote → b.left j = some [] → got = (a.conn k).sent) := by
  have sends := sends_run made run whole
  have told : b.Told := run'.invariant (told_init made') fun _ _ _ => Told.step
  have handled : b.Handled ip' port' :=
    run'.invariant (handled_init made') fun _ _ _ => Handled.step
  obtain ⟨all, wrote, triples, ports⟩ := sends k
  obtain ⟨read, ⟨rest, bytes⟩, _, open_, returned⟩ := told.frames handled old
  have first : read <+: all := by
    apply framing.prefix_of_encodeAll_prefix framing_exact
    rw [bytes, ← wrote]
    exact arrived
  obtain ⟨more, rfl⟩ := first
  -- the messages of the first so many sends
  have sent : ((a.conn k).sent.take read.length).map cut = read.map Frame.triple := by
    rw [List.map_take, ← triples, List.map_append]
    exact List.take_left' (List.length_map _)
  refine ⟨(a.conn k).sent.take read.length, List.take_prefix _ _, ?_, fun complete drained => ?_⟩
  · rw [returned, sent]
    exact filter_deliverable (fun f mem => ports f (List.mem_append_left _ mem)) other
  · rw [left] at drained
    obtain ⟨opened, drained⟩ := Option.ite_none_right_eq_some.mp drained
    have parts := open_ opened
    rw [Option.some.inj drained, List.append_nil, complete, wrote] at parts
    have none : framing.encodeAll more = [] := by simpa using parts
    have nothing : more = [] := by
      have length := framing.length_le_encodeAll more
      rw [none] at length
      exact List.length_eq_zero_iff.mp (Nat.le_zero.mp length)
    rw [nothing, List.append_nil] at triples
    have length := congrArg List.length triples
    rw [List.length_map, List.length_map] at length
    rw [length]
    exact List.take_length

/-- An instance hears of another one, connects to it and sends it two messages, the second
one with a tag that is no `short`. -/
def sendsTwo : List Event :=
  [.others 4 [] [⟨1, [0, 7, 0, 10, 0, 0, 0, 0]⟩] false,
   .poll ⟨.idle, [[⟨POLLIN, fun _ => 1, 0, 0, none⟩]]⟩ 0, .push,
   .turn ⟨⟨10, 0, []⟩, ⟨10, 1, []⟩, ⟨⟨10, 2, []⟩, -1, 0⟩⟩ ⟨none, 0, true, none, true⟩,
   .send ⟨⟨11, 3, []⟩, 5, 0⟩ 8 1 [65] ⟨some (5, .stream [] [] false 1), 5000, true, some 9, true⟩,
   .send ⟨⟨12, 4, []⟩, -1, 0⟩ 65545 1 [66, 67] ⟨none, 0, true, some 99, true⟩]

/-- The other one accepts the connection and reads the first message. -/
def readsFirst : List Event :=
  [.poll ⟨.incoming (some (6, .stream [] [] false 2)), []⟩ 10,
   .others 6 [0, 8, 19, 136, 0, 0, 0, 1, 65, 0, 9] [] false,
   .poll ⟨.idle, [[⟨0, fun _ => 0, 0, 0, none⟩, ⟨POLLIN, fun _ => 11, 0, 0, none⟩]]⟩ 0, .push,
   .turn ⟨⟨10, 0, []⟩, ⟨10, 1, []⟩, ⟨⟨10, 2, []⟩, -1, 0⟩⟩ ⟨none, 0, true, none, true⟩]

theorem end_to_end_first :
    ∃ start a start' b, init 2 3 20 4 threadStack = some start ∧ Run (Det step) start sendsTwo a ∧
      init 1 3 10 4 threadStack = some start' ∧ Run (Det step) start' readsFirst b ∧
      (a.conn 0).sent.length = 2 ∧ (b.returned 0).map SMsg.triple = [(8, 5000, [65])] ∧
      ∃ got, got <+: (a.conn 0).sent ∧
        (b.returned 0 ++ (b.queued 0).filter (SMsg.Deliverable 1 10)).map SMsg.triple =
          (got.map cut).filter (fun t => t.1 ≠ sbusFind) := by
  obtain ⟨start, a, made, run, whole, two, wrote, own⟩ :
      ∃ start a, init 2 3 20 4 threadStack = some start ∧ Run (Det step) start sendsTwo a ∧
        EachStep (Det step) Whole start sendsTwo ∧ (a.conn 0).sent.length = 2 ∧
        (a.conn 0).wrote = [0, 8, 19, 136, 0, 0, 0, 1, 65, 0, 9, 19, 136, 0, 0, 0, 2, 66, 67] ∧
        (a.conn 0).localPort = 5000 :=
    ⟨_, _, rfl, run_det_iff.mpr rfl, by decide +kernel, by decide +kernel, by decide +kernel,
      by decide +kernel⟩
  obtain ⟨start', b, made', run', old, one, written⟩ :
      ∃ start b, init 1 3 10 4 threadStack = some start ∧ Run (Det step) start readsFirst b ∧
        0 < b.conns ∧ (b.returned 0).map SMsg.triple = [(8, 5000, [65])] ∧
        (b.conn 0).written = [0, 8, 19, 136, 0, 0, 0, 1, 65, 0, 9] :=
    ⟨_, _, rfl, run_det_iff.mpr rfl, by decide +kernel, by decide +kernel, by decide +kernel⟩
  have arrived : (b.conn 0).written <+: (a.conn 0).wrote := by
    rw [written, wrote]
    exact ⟨[19, 136, 0, 0, 0, 2, 66, 67], rfl⟩
  have other : ¬ ((b.conn 0).remote = 1 ∧ (a.conn 0).localPort = 10) := by
    rw [own]
    exact fun both => absurd both.2 (by decide)
  obtain ⟨got, first, returned, _⟩ :=
    end_to_end made run whole made' run' old arrived other
  exact ⟨start, a, start', b, made, run, made', run', two, one, got, first, returned⟩

end Node

end LibSBus
