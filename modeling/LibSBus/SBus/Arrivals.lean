import LibSBus.SBus.EndToEnd
import LibSBus.SMessenger.Progress

/-!
That everything which was written to an instance comes out of `recv` in the end. When the
peers have stopped writing and all their bytes have come, each call that `inLoop` makes
brings one message at least out of the sockets, until no frame is complete in any of them.
So a number of calls that is known beforehand is enough, whatever the application does
meanwhile, as long as it gets no new connection and the stack of the receiving thread is
enough for each call. A connection that ends is closed only when all its frames were read.
-/

namespace LibSBus

open Lib SContacts

/-- The messages of all frames of a connection. -/
def Conn.all (c : Conn) : List SMsg := (framing.parse c.written).map (Frame.toSMsg c.remote c.fd)

namespace Node

variable {s n n' : Node} {k : Nat} {event : Event} {kernel : Kernel} {sent : Int}
  {action : Action} {actions : List Action} {later : List Event}

/-- The messages that came over no connection: those taken from the queue, then those on
their way. -/
def heard (n : Node) : List SMsg :=
  ((n.taken.map Prod.fst ++ n.waiting).filter fun q => q.conn = none).map Queued.smsg

/-- Those with the ones in the multicast socket. -/
def hears (n : Node) : List SMsg :=
  n.heard ++ n.messenger.queued.map (Datagram.message n.messenger.mcsock)

/-- Nobody connects, writes or closes, and the calls of `recv` are faithful. -/
def Calm (n : Node) : Event → Prop
  | .poll env _ => n.messenger.Faithful env
  | .push => True
  | .turn _ kernel => kernel.client.isNone
  | .setName _ kernel => kernel.client.isNone
  | .multicast _ _ kernel => kernel.client.isNone
  | .send _ _ _ _ kernel => kernel.client.isNone
  | .others _ _ _ _ => False

instance (n : Node) (event : Event) : Decidable (n.Calm event) :=
  match event with
  | .poll env _ => inferInstanceAs (Decidable (n.messenger.Faithful env))
  | .push => .isTrue trivial
  | .turn _ kernel => instDecidableEqBool kernel.client.isNone true
  | .setName _ kernel => instDecidableEqBool kernel.client.isNone true
  | .multicast _ _ kernel => instDecidableEqBool kernel.client.isNone true
  | .send _ _ _ _ kernel => instDecidableEqBool kernel.client.isNone true
  | .others _ _ _ _ => .isFalse id

def Event.reads : Event → Bool
  | .poll _ _ => true
  | _ => false

/-- Nothing comes from the peers. -/
structure Still (n n' : Node) : Prop where
  messenger : n'.messenger = n.messenger
  opened : n'.opened = n.opened
  story : ∀ k, n'.story k = n.story k
  heard : n'.heard = n.heard
  conn : ∀ k, (n'.conn k).fd = (n.conn k).fd ∧ (n'.conn k).remote = (n.conn k).remote ∧
    (n'.conn k).written = (n.conn k).written

theorem still_refl (n : Node) : Still n n :=
  ⟨rfl, rfl, fun _ => rfl, rfl, fun _ => ⟨rfl, rfl, rfl⟩⟩

theorem Still.trans {n'' : Node} (first : Still n n') (second : Still n' n'') : Still n n'' := by
  refine ⟨second.messenger.trans first.messenger, second.opened.trans first.opened,
    fun k => (second.story k).trans (first.story k), second.heard.trans first.heard, fun k => ?_⟩
  obtain ⟨fd, remote, written⟩ := first.conn k
  obtain ⟨fd', remote', written'⟩ := second.conn k
  exact ⟨fd'.trans fd, remote'.trans remote, written'.trans written⟩

theorem still_perform (calm : kernel.client.isNone)
    (call : n.perform kernel sent action = some n') : Still n n' := by
  rcases perform_cases call with rfl | ⟨_, _, _, _, _, rfl⟩ |
    ⟨_, _, _, k, _, _, _, _, rfl⟩
  · exact still_refl n'
  · rw [Option.isNone_iff_eq_none.mp calm]
    exact ⟨rfl, rfl, fun _ => rfl, rfl, fun _ => ⟨rfl, rfl, rfl⟩⟩
  · refine ⟨rfl, rfl, fun _ => rfl, rfl, fun j => ?_⟩
    by_cases here : j = k
    · rw [here, sending_conn_self]
      exact ⟨rfl, rfl, rfl⟩
    · rw [sending_conn_ne n here]
      exact ⟨rfl, rfl, rfl⟩

theorem still_performs (calm : kernel.client.isNone)
    (call : actions.foldlM (Node.perform kernel sent) n = some n') : Still n n' :=
  (run_det_iff.mpr call).invariant (I := Still n) (still_refl n)
    fun _ _ _ still call => still.trans (still_perform calm call)

/-- What the application does, and the push. -/
theorem still_step (calm : n.Calm event) (app : event.reads = false)
    (taken : n.step event = some n') : Still n n' := by
  cases event with
  | poll env localPort => cases app
  | push =>
      obtain rfl := Option.some.inj taken
      exact ⟨rfl, rfl, n.push_story, by rw [heard, push_waiting, heard], fun _ => ⟨rfl, rfl, rfl⟩⟩
  | turn env kernel =>
      rcases turn_cases taken with rfl | ⟨q, rest, peer, bus, actions, front, _, taken⟩
      · exact still_refl n'
      · have popped : Still n { n with bus, inq := rest, taken := n.taken ++ [(q, peer)] } := by
          have same : (n.taken ++ [(q, peer)]).map Prod.fst ++ (rest ++ n.held.toList) =
              n.taken.map Prod.fst ++ n.waiting := by
            rw [waiting, front, List.map_append, List.append_assoc]
            rfl
          exact ⟨rfl, rfl, fun k => by rw [story, waiting, same, story],
            by rw [heard, waiting, same, heard], fun _ => ⟨rfl, rfl, rfl⟩⟩
        exact popped.trans (still_performs calm taken)
  | setName name kernel =>
      have named : Still n { n with bus := (n.bus.setName name).1 } :=
        ⟨rfl, rfl, fun _ => rfl, rfl, fun _ => ⟨rfl, rfl, rfl⟩⟩
      exact named.trans (still_performs calm taken)
  | multicast msgtag msg kernel => exact multicast_same taken ▸ still_refl n
  | send env msgtag peer msg kernel =>
      have asked : Still n { n with bus := (n.bus.send env msgtag peer msg).2.1 } :=
        ⟨rfl, rfl, fun _ => rfl, rfl, fun _ => ⟨rfl, rfl, rfl⟩⟩
      exact asked.trans (still_performs calm taken)
  | others fd bytes datagrams closes => exact calm.elim

/-- The multicast socket does not fail, and a connection that is made is registered. -/
def Spares (n : Node) : Event → Prop
  | .poll env _ => n.messenger.Spares (.recv env)
  | .push => True
  | .turn _ kernel => n.messenger.Spares (.connect kernel.client kernel.polled)
  | .setName _ kernel => n.messenger.Spares (.connect kernel.client kernel.polled)
  | .multicast _ _ kernel => n.messenger.Spares (.connect kernel.client kernel.polled)
  | .send _ _ _ _ kernel => n.messenger.Spares (.connect kernel.client kernel.polled)
  | .others _ _ _ _ => True

theorem sound_performs (sound : n.messenger.Sound)
    (spares : n.messenger.Spares (.connect kernel.client kernel.polled))
    (call : actions.foldlM (Node.perform kernel sent) n = some n') : n'.messenger.Sound := by
  refine (run_det_iff.mpr call).invariant (I := fun a => a.messenger.Sound) sound ?_
  intro a action b sound call
  rcases perform_cases call with rfl | ⟨_, _, _, _, handed, rfl⟩ |
    ⟨_, _, _, _, _, _, _, _, rfl⟩
  · exact sound
  · have possible : a.messenger.Possible (.connect kernel.client kernel.polled) := handed
    exact (SMessenger.after_registered_iff sound possible).2 spares
  · exact sound

theorem sound_step (sound : n.messenger.Sound) (spares : n.Spares event)
    (taken : n.step event = some n') : n'.messenger.Sound := by
  cases event with
  | poll env localPort =>
      obtain ⟨_, offers, _, rfl⟩ := poll_cases taken
      have possible : n.messenger.Possible (.recv env) := offers.1
      exact (SMessenger.after_registered_iff sound possible).2 spares
  | push =>
      obtain rfl := Option.some.inj taken
      exact sound
  | turn env kernel =>
      rcases turn_cases taken with rfl | ⟨q, rest, peer, bus, actions, _, _, taken⟩
      · exact sound
      · exact sound_performs
          (n := { n with bus, inq := rest, taken := n.taken ++ [(q, peer)] }) sound spares taken
  | setName name kernel =>
      exact sound_performs (n := { n with bus := (n.bus.setName name).1 }) sound spares taken
  | multicast msgtag msg kernel => exact multicast_same taken ▸ sound
  | send env msgtag peer msg kernel =>
      exact sound_performs (n := { n with bus := (n.bus.send env msgtag peer msg).2.1 })
        sound spares taken
  | others fd bytes datagrams closes =>
      obtain rfl := Option.some.inj taken
      have possible : n.messenger.Possible (.others fd bytes datagrams closes) :=
        fun _ mem => by cases mem
      exact (SMessenger.after_registered_iff sound possible).2 trivial

/-- What the messages of an open connection are once no frame is left in its socket. -/
theorem Told.all (told : n.Told) (open_ : n.opened (n.conn k).fd = some k)
    (spent : framing.parse (n.messenger.sock (n.conn k).fd).pending = []) :
    n.story k = (n.conn k).all := by
  have tells := told.tells k (told.opened _ k open_).1
  rw [told.left_of_opened open_] at tells
  obtain ⟨frames, story, written⟩ := tells
  rw [story, Conn.all, written, framing.parse_encodeAll_append framing_exact, spent,
    List.append_nil]

/-- Since `s`, every connection that was open has stayed so or was closed after all its
messages were told, and no datagram was lost. -/
structure Expects (s n : Node) : Prop where
  told : n.Told
  attended : n.messenger.Attended
  hears : n.hears = s.hears
  conn : ∀ k, (n.conn k).fd = (s.conn k).fd ∧ (n.conn k).remote = (s.conn k).remote ∧
    (n.conn k).written = (s.conn k).written
  ended : ∀ k, s.opened (s.conn k).fd = some k → n.opened (s.conn k).fd = some k ∨
    (n.opened (s.conn k).fd ≠ some k ∧
      n.story k = (s.conn k).all ++ [SMsg.ofError errcodePeerDisconnected 0 0 (s.conn k).fd])

theorem Expects.all (expects : Expects s n) (k : Nat) : (n.conn k).all = (s.conn k).all := by
  obtain ⟨fd, remote, written⟩ := expects.conn k
  rw [Conn.all, fd, remote, written, Conn.all]

theorem Expects.still (expects : Expects s n) (still : Still n n') (told : n'.Told) :
    Expects s n' := by
  refine ⟨told, ?_, ?_, fun k => ?_, fun k open_ => ?_⟩
  · rw [still.messenger]
    exact expects.attended
  · rw [Node.hears, still.heard, still.messenger]
    exact expects.hears
  · obtain ⟨fd, remote, written⟩ := expects.conn k
    obtain ⟨fd', remote', written'⟩ := still.conn k
    exact ⟨fd'.trans fd, remote'.trans remote, written'.trans written⟩
  · rw [still.opened, still.story]
    exact expects.ended k open_

theorem heard_holding (idle : n.held = none) (m : SMessenger) (out : Option SMsg) :
    (n.holding m out).heard =
      n.heard ++ out.toList.filter fun msg => n.opened msg.socket = none := by
  rw [heard, waiting_holding idle, heard, show (n.holding m out).taken = n.taken from rfl,
    ← List.append_assoc, List.filter_append, List.map_append, List.filter_map, List.map_map]
  exact congrArg _ (List.map_id _)

/-- A call that `inLoop` makes brings a message out of the sockets, or there is none. In the
other calm events nothing comes. -/
theorem calm_cases (told : n.Told) (attended : n.messenger.Attended) (calm : n.Calm event)
    (taken : n.step event = some n') :
    (Still n n' ∧ (event.reads → n.messenger.Drained)) ∨
      ∃ out m, n' = n.holding m out ∧ n.held = none ∧ n.messenger.Serves (out, m) := by
  cases reads : event.reads with
  | false => exact .inl ⟨still_step calm reads taken, fun h => by cases h⟩
  | true =>
      cases event with
      | poll env localPort =>
          obtain ⟨unheld, _, _, rfl⟩ := poll_cases taken
          have calm : n.messenger.Faithful env := calm
          have idle := calm.1
          obtain ⟨listen, passes⟩ := env
          cases listen with
          | broken reopened => exact idle.elim
          | incoming accepted => exact idle.elim
          | idle =>
              rcases attended.recv calm with ⟨same, drained⟩ | ⟨_, serves⟩
              · rw [same]
                refine .inl ⟨⟨rfl, funext fun x => ?_, fun k => ?_, ?_,
                  fun _ => ⟨rfl, rfl, rfl⟩⟩, fun _ => drained⟩
                · exact ite_eq_left_iff.mpr fun closed => (told.closed closed).symm
                · exact (story_holding unheld _ none k).trans (List.append_nil _)
                · exact (heard_holding unheld _ none).trans (List.append_nil _)
              · exact .inr ⟨_, _, rfl, unheld, serves⟩
      | _ => cases reads

/-- The datagram that is returned is queued, and no message of a connection is taken for
one. -/
theorem Told.hears (told : n.Told) (idle : n.held = none) {out : Option SMsg} {m : SMessenger}
    (attended : n.messenger.Attended) (serves : n.messenger.Serves (out, m)) :
    (n.holding m out).hears = n.hears := by
  have elsewhere : ∀ {fd : SocketType} {msg : SMsg}, (n.messenger.sock fd).kind = .stream →
      msg.socket = fd → ([msg].filter fun msg => n.opened msg.socket = none) = [] := by
    rintro fd msg stream rfl
    exact List.filter_cons_of_neg (by simpa using (told.streams _).mp stream)
  rw [Node.hears, heard_holding idle, Node.hears]
  cases serves with
  | frame member open_ =>
      have stream := congrArg Sock.kind open_
      show (n.heard ++ [_].filter _) ++ (SMessenger.queued (n.messenger.setSock _ _)).map _ = _
      rw [elsewhere stream rfl, List.append_nil,
        n.messenger.queued_setSock (attended.not_mcsock stream)]
      rfl
  | datagram open_ =>
      rename_i d rest
      have closed : n.opened n.messenger.mcsock = none :=
        told.closed (by rw [open_]; exact Kind.noConfusion)
      have own : ([d.message n.messenger.mcsock].filter fun msg => n.opened msg.socket = none) =
          [d.message n.messenger.mcsock] := List.filter_cons_of_pos (decide_eq_true closed)
      show (n.heard ++ [_].filter _) ++ (SMessenger.queued (n.messenger.setSock _ _)).map _ = _
      rw [own, SMessenger.queued_eq open_,
        SMessenger.queued_eq (SMessenger.setSock_self _ _ _), List.append_assoc]
      rfl
  | ended member open_ finished =>
      have stream := congrArg Sock.kind open_
      show (n.heard ++ [_].filter _) ++ (SMessenger.queued (n.messenger.setSock _ _)).map _ = _
      rw [elsewhere stream rfl, List.append_nil,
        n.messenger.queued_setSock (attended.not_mcsock stream)]
      rfl

theorem Expects.serves (expects : Expects s n) (idle : n.held = none) {out : Option SMsg}
    {m : SMessenger}
    (serves : n.messenger.Serves (out, m)) (told' : (n.holding m out).Told) :
    Expects s (n.holding m out) := by
  have all := expects.all
  obtain ⟨told, attended, hears, conn, ended⟩ := expects
  refine ⟨told', attended.serves serves, (told.hears idle attended serves).trans hears, conn,
    fun k start => ?_⟩
  have fd := (conn k).1
  show (if (m.sock (s.conn k).fd).kind = .stream then n.opened (s.conn k).fd else none) = some k ∨
    ((if (m.sock (s.conn k).fd).kind = .stream then n.opened (s.conn k).fd else none) ≠ some k ∧ _)
  rw [story_holding idle]
  rcases ended k start with open_ | ⟨closed, complete⟩
  · by_cases stays : (m.sock (s.conn k).fd).kind = .stream
    · rw [if_pos stays]
      exact .inl open_
    · have stream : (n.messenger.sock (s.conn k).fd).kind = .stream :=
        (told.streams _).mpr (by rw [open_]; simp)
      obtain ⟨report, spent⟩ := serves.closes stream stays
      obtain rfl : out = some (SMsg.ofError errcodePeerDisconnected 0 0 (s.conn k).fd) := report
      have own : decide (n.opened (s.conn k).fd = some k) = true := decide_eq_true open_
      rw [← fd] at open_ spent
      rw [if_neg stays, told.all open_ spent, all]
      exact .inr ⟨by simp, congrArg _ (List.filter_cons_of_pos own)⟩
  · have closed' : n.opened (n.conn k).fd ≠ some k := fd ▸ closed
    rw [told.silent closed', List.append_nil]
    refine .inr ⟨?_, complete⟩
    split
    case isTrue stream => exact closed
    case isFalse other => simp

theorem Expects.step (expects : Expects s n) (calm : n.Calm event)
    (taken : n.step event = some n') : Expects s n' := by
  have told := expects.told.step taken
  rcases calm_cases expects.told expects.attended calm taken with
    ⟨still, _⟩ | ⟨_, _, rfl, idle, serves⟩
  · exact expects.still still told
  · exact expects.serves idle serves told

/-- Each call that `inLoop` makes is a call less to be made. -/
theorem Expects.nearer (expects : Expects s n) (calm : n.Calm event)
    (taken : n.step event = some n') : n'.messenger.Drained ∨
      (if event.reads then 1 else 0) + n'.messenger.load ≤ n.messenger.load := by
  have one : (if event.reads then 1 else 0) ≤ 1 := by split <;> decide
  rcases calm_cases expects.told expects.attended calm taken with
    ⟨still, drained⟩ | ⟨_, _, rfl, _, serves⟩
  · rw [still.messenger]
    by_cases reads : event.reads
    · exact .inl (drained reads)
    · rw [if_neg reads, Nat.zero_add]
      exact .inr le_rfl
  · have less : _ < n.messenger.load := expects.attended.load_lt serves
    exact .inr (Nat.le_trans (Nat.add_le_add_right one _) (Nat.add_comm 1 _ ▸ less))

theorem Expects.stays (expects : Expects s n) (drained : n.messenger.Drained)
    (calm : n.Calm event) (taken : n.step event = some n') : n'.messenger.Drained := by
  rcases calm_cases expects.told expects.attended calm taken with
    ⟨still, _⟩ | ⟨_, _, rfl, idle, serves⟩
  · rw [still.messenger]
    exact drained
  · exact SMessenger.Drained.serves expects.attended drained serves

/-- After as many calls as there can be messages. -/
theorem Expects.drained (expects : Expects s n) (run : Run (Det Node.step) n later n')
    (calm : EachStep (Det Node.step) Calm n later)
    (enough : n.messenger.load ≤ later.countP Event.reads) :
    Expects s n' ∧ n'.messenger.Drained := by
  have keep : ∀ a event b, Expects s a → a.Calm event → a.step event = some b → Expects s b :=
    fun _ _ _ => Expects.step
  have arrives := run.progress (G := fun a => a.messenger.Drained) expects calm
    (fun a => a.messenger.load) keep
    (fun _ _ _ expects calm drained taken => expects.stays drained calm taken)
    (fun _ _ _ => Expects.nearer)
  refine ⟨run.guarded_invariant expects calm keep, ?_⟩
  rcases arrives with drained | spent
  · exact drained
  · exact SMessenger.drained_of_load (by omega)

/-- What there is to tell in the end. -/
theorem Expects.story (expects : Expects s n) (drained : n.messenger.Drained)
    (open_ : s.opened (s.conn k).fd = some k) :
    n.story k = (s.conn k).all ++ if n.opened (s.conn k).fd = some k then []
      else [SMsg.ofError errcodePeerDisconnected 0 0 (s.conn k).fd] := by
  have told := expects.told
  rcases expects.ended k open_ with open' | ⟨closed, complete⟩
  · have stream := (told.streams _).mpr (by rw [open']; simp)
    rw [if_pos open', List.append_nil, ← expects.all]
    rw [← (expects.conn k).1] at open' stream
    exact told.all open' (drained.parse expects.attended stream)
  · rw [if_neg closed, complete]

theorem expects_self (told : n.Told) (attended : n.messenger.Attended) : Expects n n :=
  ⟨told, attended, rfl, fun _ => ⟨rfl, rfl, rfl⟩, fun _ open_ => .inl open_⟩

/-- What `recv` returns in the end, once nothing is on its way. -/
theorem Expects.returned {ip : IP} {port : Port} (expects : Expects s n)
    (handled : n.Handled ip port) (drained : n.messenger.Drained) (empty : n.waiting = [])
    (open_ : s.opened (s.conn k).fd = some k) :
    n.returned k = (s.conn k).all.filter (SMsg.Deliverable ip port) := by
  have none : n.queued k = [] := by rw [Node.queued, empty]; rfl
  have returned := handled.returned k
  have report : ([SMsg.ofError errcodePeerDisconnected 0 0 (s.conn k).fd].filter
      (SMsg.Deliverable ip port)) = [] := rfl
  rw [none, List.filter_nil, List.append_nil, expects.story drained open_,
    List.filter_append] at returned
  rw [returned]
  split
  case isTrue open' => exact List.append_nil _
  case isFalse closed => rw [report, List.append_nil]

section

variable {ip : IP} {servsock mcsock : SocketType} {port : Port} {stack : Nat} {start : Node}
  {events : List Event}

/-- All that was sent has come, the datagrams are well-formed, and no socket has number 0,
with which `recv` passes by it. -/
structure Arrived (n : Node) : Prop where
  positive : ∀ fd ∈ n.messenger.spoll, 0 < fd
  arrived : ∀ fd, (n.messenger.sock fd).Arrived
  good : ∀ d ∈ n.messenger.queued, d.WellFormed

theorem Arrived.expects (arrived : n.Arrived)
    (made : init ip servsock port mcsock stack = some start)
    (run : Run (Det Node.step) start events n)
    (spared : EachStep (Det Node.step) Spares start events) : Expects n n := by
  have told : n.Told := run.invariant (told_init made) fun _ _ _ => Told.step
  have sound : n.messenger.Sound := by
    refine run.guarded_invariant (I := fun a => a.messenger.Sound) ?_ spared
      fun _ _ _ => sound_step
    obtain ⟨m, built, rfl⟩ := Option.map_eq_some_iff.mp made
    exact SMessenger.sound_construct built
  exact expects_self told ⟨sound, arrived.positive, arrived.arrived, arrived.good⟩

end

end Node

end LibSBus
