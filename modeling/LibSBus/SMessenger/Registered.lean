import LibSBus.SMessenger.Multicast

/-!
What is registered for `poll`. Connections are registered when they are accepted
or made, and taken out again when they are closed. The multicast socket is
registered when it is opened, but the branch of `socketErrorHandling` that opens
it again closes the old one and leaves it registered; the new one is registered
behind it, often under the same number. And `connect`, when the `poll` it waits
with fails, leaves a connection that is open and not registered. Nothing else
goes wrong.

A connection counts from the moment its descriptor is open, established or not.
-/

namespace LibSBus

open Lib

/-- What a descriptor is open on. -/
inductive Kind
  | stream
  | dgram
  | closed
deriving DecidableEq

namespace Sock

def kind : Sock → Kind
  | .stream _ _ _ _ => .stream
  | .dgram _ _ => .dgram
  | .closed => .closed

/-- More is sent to the socket. -/
def receive (bytes : CString) (datagrams : List Datagram) (closes : Bool) : Sock → Sock
  | .stream wire buffer eof remote => .stream (wire ++ bytes) buffer (eof || closes) remote
  | .dgram wire queue => .dgram (wire ++ datagrams) queue
  | .closed => .closed

@[simp] theorem kind_arrive (s : Sock) (n : Nat) : (s.arrive n).kind = s.kind := by
  cases s <;> rfl

@[simp] theorem kind_consume (s : Sock) (n : Nat) : (s.consume n).kind = s.kind := by
  cases s <;> rfl

@[simp] theorem kind_receive (s : Sock) (bytes : CString) (datagrams : List Datagram)
    (closes : Bool) : (s.receive bytes datagrams closes).kind = s.kind := by
  cases s <;> rfl

end Sock

/-- `nextMsg` opens and closes nothing. -/
theorem nextMsg_kind (len : Int) (s : Sock) (late later : Nat) :
    (nextMsg len s late later).2.kind = s.kind := by
  unfold nextMsg
  dsimp only
  repeat' split
  all_goals simp

/-- A datagram socket fails when a rejected datagram is at the head of its queue. -/
theorem nextMsg_dgram_error_iff {wire queue : List Datagram} {late later : Nat} :
    (nextMsg maxDatalen (.dgram wire queue) late later).1 = .error ↔
      ∃ d ∈ queue.head?, d.Rejected := by
  cases queue with
  | nil => simp [nextMsg, Sock.recvfrom, maxDatalen]
  | cons d rest =>
      rw [nextMsg_dgram]
      simp only [List.head?_cons, Option.mem_some_iff, exists_eq_left', Datagram.Rejected]
      split
      case isTrue empty => simp [empty]
      case isFalse nonempty =>
        split
        case isTrue short => simp [nonempty, short]
        case isFalse long =>
          have header : hdrlen ≤ d.bytes.length := Nat.le_of_not_lt long
          by_cases small : 0 ≤ datasize d.bytes ∧ datasize d.bytes ≤ maxDatalen
          · by_cases part : d.bytes.length < hdrlen + (datasize d.bytes).toNat
            · rw [scan_incomplete header small part]
              simp [nonempty, small]
            · obtain ⟨f, found, _⟩ := scan_frame small (Nat.le_of_not_lt part)
              rw [found]
              simp [nonempty, small]
          · rw [scan_invalid header small]
            simp [header, small]

namespace SMessenger

variable {m m' : SMessenger} {fd : SocketType} {look : Look}

/-- The registered descriptors are distinct, they are the multicast socket and the
open connections, and none of them is closed. -/
structure Registered (m : SMessenger) : Prop where
  distinct : m.spoll.Nodup
  exact : ∀ fd, fd ∈ m.spoll ↔ fd = m.mcsock ∨ (m.sock fd).kind = .stream
  opened : ∀ fd ∈ m.spoll, (m.sock fd).kind ≠ .closed

/-- The invariant: also, the multicast socket is one. -/
structure Sound (m : SMessenger) : Prop extends Registered m where
  multicast : (m.sock m.mcsock).kind = .dgram

/-- From `m` to `m'` nothing was opened, closed or registered. -/
structure Untouched (m m' : SMessenger) : Prop where
  spoll : m'.spoll = m.spoll
  mcsock : m'.mcsock = m.mcsock
  kind : ∀ fd, (m'.sock fd).kind = (m.sock fd).kind

theorem untouched_refl (m : SMessenger) : Untouched m m := ⟨rfl, rfl, fun _ => rfl⟩

theorem untouched_arrive (m : SMessenger) (arrivals : SocketType → Nat) :
    Untouched m (m.arrive arrivals) := ⟨rfl, rfl, fun fd => by simp⟩

theorem Untouched.setSock (untouched : Untouched m m') {s : Sock}
    (same : s.kind = (m'.sock fd).kind) : Untouched m (m'.setSock fd s) := by
  refine ⟨untouched.spoll, untouched.mcsock, fun x => ?_⟩
  rw [← untouched.kind x]
  by_cases here : x = fd
  · rw [here, setSock_self, same]
  · rw [setSock_of_ne m' s here]

theorem Sound.untouched (sound : m.Sound) (untouched : Untouched m m') : m'.Sound := by
  obtain ⟨spoll, mcsock, kind⟩ := untouched
  refine ⟨⟨?_, fun fd => ?_, fun fd => ?_⟩, ?_⟩
  · rw [spoll]
    exact sound.distinct
  · rw [spoll, mcsock, kind]
    exact sound.exact fd
  · rw [spoll, kind]
    exact sound.opened fd
  · rw [mcsock, kind]
    exact sound.multicast

/-- A connection that fails is closed and taken out. -/
theorem Sound.drop (sound : m.Sound) (other : fd ≠ m.mcsock) (reopened : Option SocketType) :
    (m.socketErrorHandling fd reopened).Sound := by
  have kept : ∀ x, x ≠ fd → (m.setSock fd .closed).sock x = m.sock x :=
    fun x => setSock_of_ne m .closed
  rw [socketErrorHandling, if_neg other]
  refine ⟨⟨sound.distinct.erase fd, fun x => ?_, fun x mem => ?_⟩, ?_⟩
  · rw [sound.distinct.mem_erase_iff, sound.exact]
    show _ ↔ x = m.mcsock ∨ ((m.setSock fd .closed).sock x).kind = .stream
    by_cases here : x = fd
    · subst here
      simp [other, Sock.kind]
    · rw [kept x here]
      exact and_iff_right here
  · obtain ⟨elsewhere, member⟩ := sound.distinct.mem_erase_iff.mp mem
    show ((m.setSock fd .closed).sock x).kind ≠ .closed
    rw [kept x elsewhere]
    exact sound.opened x member
  · show ((m.setSock fd .closed).sock m.mcsock).kind = .dgram
    rw [kept m.mcsock other.symm]
    exact sound.multicast

/-- The multicast socket that fails stays registered, closed or a second time. -/
theorem Sound.not_registered (sound : m.Sound) (reopened : Option SocketType) :
    ¬ (m.socketErrorHandling m.mcsock reopened).Registered := by
  have member : m.mcsock ∈ m.spoll := (sound.exact m.mcsock).mpr (.inl rfl)
  rw [socketErrorHandling, if_pos rfl]
  cases reopened with
  | none =>
      intro registered
      apply registered.opened m.mcsock member
      show ((m.setSock m.mcsock .closed).sock m.mcsock).kind = .closed
      rw [setSock_self, Sock.kind]
  | some x =>
      intro registered
      by_cases same : x = m.mcsock
      · have twice : (m.spoll ++ [x]).Nodup := registered.distinct
        rw [same] at twice
        exact (List.nodup_append.mp twice).2.2 m.mcsock member m.mcsock (by simp) rfl
      · apply registered.opened m.mcsock (List.mem_append_left [x] member)
        show (((m.setSock m.mcsock .closed).setSock x (.dgram [] [])).sock m.mcsock).kind = .closed
        rw [setSock_of_ne _ _ (Ne.symm same), setSock_self, Sock.kind]

/-- The multicast socket fails when it is visited: `poll` reports a problem, or it
is readable and the datagram at the head of its queue is rejected. -/
def MulticastFails (m : SMessenger) (look : Look) : Prop :=
  look.Problem ∨ look.has POLLIN ∧ ∃ d ∈ (m.arrive look.arrivals).queued.head?, d.Rejected

/-- A pass comes to the multicast socket and it fails. -/
def BreaksIn (m : SMessenger) : List (SocketType × Look) → Prop
  | [] => False
  | (fd, look) :: rest =>
      (fd = m.mcsock ∧ fd ≠ 0 ∧ m.MulticastFails look) ∨
        ((m.visit fd look).1 = none ∧ (m.visit fd look).2.BreaksIn rest)

def BreaksInLoop (m : SMessenger) : List (List Look) → Prop
  | [] => False
  | looks :: more =>
      m.BreaksIn (m.spoll.zip looks) ∨
        ((m.pass (m.spoll.zip looks)).1 = none ∧ (m.pass (m.spoll.zip looks)).2.BreaksInLoop more)

/-- A call of `recv` comes to the multicast socket and it fails. -/
def Breaks (m : SMessenger) (env : RecvEnv) : Prop :=
  0 ≤ (m.listenConn env.listen).1 ∧ (m.listenConn env.listen).2.BreaksInLoop env.passes

/-- Whether a part of a call broke decides what is registered after it. -/
def Decides (breaks : Prop) (result : Option SMsg × SMessenger) : Prop :=
  (breaks ∧ result.1 ≠ none ∧ ¬ result.2.Registered) ∨ (¬ breaks ∧ result.2.Sound)

theorem Sound.decides_error {breaks : Prop} (sound : m.Sound) (untouched : Untouched m m')
    (iff : breaks ↔ fd = m.mcsock) (msg : SMsg) (reopened : Option SocketType) :
    Decides breaks (some msg, m'.socketErrorHandling fd reopened) := by
  have sound' := sound.untouched untouched
  by_cases own : fd = m'.mcsock
  · refine .inl ⟨iff.mpr (own.trans untouched.mcsock), by simp, ?_⟩
    rw [own]
    exact sound'.not_registered reopened
  · refine .inr ⟨fun h => own ((iff.mp h).trans untouched.mcsock.symm), ?_⟩
    exact sound'.drop own reopened

/-- What `nextMsg` says on the multicast socket. -/
theorem Sound.error_iff (sound : m.Sound) (look : Look) :
    (nextMsg maxDatalen ((m.arrive look.arrivals).sock m.mcsock) look.late look.later).1 =
        .error ↔ ∃ d ∈ (m.arrive look.arrivals).queued.head?, d.Rejected := by
  have open_ := (sound.untouched (untouched_arrive m look.arrivals)).multicast
  rw [queued, arrive_mcsock]
  rw [arrive_mcsock] at open_
  cases eq : (m.arrive look.arrivals).sock m.mcsock with
  | dgram wire queue => exact nextMsg_dgram_error_iff
  | stream wire buffer eof remote =>
      rw [eq] at open_
      cases open_
  | closed =>
      rw [eq] at open_
      cases open_

theorem visit_decides (sound : m.Sound) (fd : SocketType) (look : Look) :
    Decides (fd = m.mcsock ∧ fd ≠ 0 ∧ m.MulticastFails look) (m.visit fd look) := by
  have arrived := untouched_arrive m look.arrivals
  unfold visit
  dsimp only
  split
  case isFalse passed =>
    refine .inr ⟨?_, sound.untouched arrived⟩
    rintro ⟨_, used, problem | ⟨readable, _⟩⟩
    · rcases problem with flag | flag | flag <;>
        exact passed ⟨used, Look.revents_ne_zero flag⟩
    · exact passed ⟨used, Look.revents_ne_zero readable⟩
  case isTrue reported =>
    split
    case isTrue problem =>
      apply sound.decides_error arrived
      exact ⟨fun breaks => breaks.1, fun own => ⟨own, reported.1, .inl problem⟩⟩
    case isFalse fine =>
      split
      case isFalse silent =>
        refine .inr ⟨?_, sound.untouched arrived⟩
        rintro ⟨_, _, problem | ⟨readable, _⟩⟩
        · exact fine problem
        · exact silent readable
      case isTrue readable =>
        have read := nextMsg_kind maxDatalen ((m.arrive look.arrivals).sock fd) look.late look.later
        have iff : (fd = m.mcsock ∧ fd ≠ 0 ∧ m.MulticastFails look) ↔ fd = m.mcsock ∧
            (nextMsg maxDatalen ((m.arrive look.arrivals).sock fd) look.late look.later).1 =
              .error := by
          apply and_congr_right
          rintro rfl
          rw [sound.error_iff, MulticastFails]
          simp [reported.1, fine, readable]
        rw [iff]
        split
        case h_1 s eq =>
          rw [eq] at read ⊢
          apply sound.decides_error (arrived.setSock read)
          exact and_iff_left rfl
        case h_2 s eq =>
          rw [eq] at read ⊢
          exact .inr ⟨by simp, sound.untouched (arrived.setSock read)⟩
        case h_3 msgtag ip port msg s eq =>
          rw [eq] at read ⊢
          have sound' := sound.untouched (arrived.setSock read)
          split <;> exact .inr ⟨by simp, sound'⟩

/-- One part of a call, and the next one unless the first gave a message. -/
theorem Decides.andThen {here later : Prop} {first next : Option SMsg × SMessenger}
    (decides : Decides here first) (more : first.2.Sound → Decides later next) :
    Decides (here ∨ (first.1 = none ∧ later)) (if first.1 = none then next else first) := by
  rcases decides with ⟨breaks, given, broken⟩ | ⟨fine, sound⟩
  · rw [if_neg given]
    exact .inl ⟨.inl breaks, given, broken⟩
  · by_cases none : first.1 = none
    · rw [if_pos none]
      simpa [fine, none] using more sound
    · rw [if_neg none]
      exact .inr ⟨by simp [fine, none], sound⟩

theorem pass_decides (sound : m.Sound) (entries : List (SocketType × Look)) :
    Decides (m.BreaksIn entries) (m.pass entries) := by
  induction entries generalizing m with
  | nil => exact .inr ⟨id, sound⟩
  | cons entry rest ih =>
      obtain ⟨fd, look⟩ := entry
      rw [pass_cons]
      exact (visit_decides sound fd look).andThen ih

theorem polls_decides (sound : m.Sound) (passes : List (List Look)) :
    Decides (m.BreaksInLoop passes) (m.polls passes) := by
  induction passes generalizing m with
  | nil => exact .inr ⟨id, sound⟩
  | cons looks more ih =>
      rw [polls_cons]
      exact (pass_decides sound (m.spoll.zip looks)).andThen ih

/-- The kernel hands out a descriptor that is closed, for a connection. -/
def Handed (m : SMessenger) (fd : SocketType) (s : Sock) : Prop :=
  0 ≤ fd ∧ (m.sock fd).kind = .closed ∧ fd ≠ m.servsock ∧ s.kind = .stream

instance (m : SMessenger) (fd : SocketType) (s : Sock) : Decidable (m.Handed fd s) :=
  inferInstanceAs (Decidable (_ ∧ _))

/-- A new connection that is registered. -/
theorem Sound.open (sound : m.Sound) {s : Sock} (handed : m.Handed fd s) :
    Sound { m.setSock fd s with spoll := m.spoll ++ [fd] } := by
  obtain ⟨_, closed, _, stream⟩ := handed
  have new : fd ∉ m.spoll := fun member => sound.opened fd member closed
  have other : m.mcsock ≠ fd := fun same => new (same ▸ (sound.exact _).mpr (.inl rfl))
  refine ⟨⟨?_, fun x => ?_, fun x member => ?_⟩, ?_⟩
  · exact List.nodup_append.mpr ⟨sound.distinct, by simp, by
      rintro x mem y last rfl
      exact new (List.mem_singleton.mp last ▸ mem)⟩
  · show x ∈ m.spoll ++ [fd] ↔ x = m.mcsock ∨ ((m.setSock fd s).sock x).kind = .stream
    rw [List.mem_append, List.mem_singleton]
    by_cases here : x = fd
    · rw [here, setSock_self]
      simp [stream]
    · rw [setSock_of_ne m s here, ← sound.exact]
      simp [here]
  · show ((m.setSock fd s).sock x).kind ≠ .closed
    by_cases here : x = fd
    · rw [here, setSock_self, stream]
      decide
    · rw [setSock_of_ne m s here]
      rcases List.mem_append.mp member with old | last
      · exact sound.opened x old
      · exact absurd (List.mem_singleton.mp last) here
  · show ((m.setSock fd s).sock m.mcsock).kind = .dgram
    rw [setSock_of_ne m s other]
    exact sound.multicast

/-- A connection that is open and not registered. -/
theorem Sound.not_registered_leaked (sound : m.Sound) {s : Sock} (handed : m.Handed fd s) :
    ¬ (m.setSock fd s).Registered := by
  obtain ⟨_, closed, _, stream⟩ := handed
  intro registered
  have member : fd ∈ m.spoll := (registered.exact fd).mpr (.inr (by rw [setSock_self, stream]))
  exact sound.opened fd member closed

end SMessenger

/-- The connection that is accepted. -/
def Listen.accepted : Listen → Option (SocketType × Sock)
  | .incoming accepted => accepted
  | .idle => none
  | .broken _ => none

namespace SMessenger

/-- A call, or something sent to one of the sockets meanwhile. -/
inductive Call
  | recv (env : RecvEnv)
  | connect (client : Option (SocketType × Sock)) (polled : Bool)
  | others (fd : SocketType) (bytes : CString) (datagrams : List Datagram) (closes : Bool)

/-- The descriptor a call is handed for a connection, with what it is open on. -/
def Call.handed : Call → Option (SocketType × Sock)
  | .recv env => env.listen.accepted
  | .connect client _ => client
  | .others _ _ _ _ => none

/-- The kernel may answer the call so. -/
def Possible (m : SMessenger) (call : Call) : Prop :=
  ∀ connection ∈ call.handed, m.Handed connection.1 connection.2

instance (m : SMessenger) (call : Call) : Decidable (m.Possible call) := by
  unfold Possible
  infer_instance

def after (m : SMessenger) : Call → SMessenger
  | .recv env => (m.recv env).2
  | .connect client polled => (m.connect client polled).2
  | .others fd bytes datagrams closes =>
      m.setSock fd ((m.sock fd).receive bytes datagrams closes)

def step (m : SMessenger) (call : Call) : Option SMessenger :=
  if m.Possible call then some (m.after call) else none

/-- `poll` reports an error on the multicast socket, which is opened again under its
old number. -/
theorem registered_twice :
    ¬ ∀ ip servsock port mcsock m, construct ip servsock port mcsock = some m →
      ∀ calls, Always (Det step) Registered m calls := by
  intro always
  obtain ⟨m, s, made, run, twice⟩ : ∃ m s, construct 1 3 10 4 = some m ∧
      Run (Det step) m
        [.recv ⟨.idle, [[⟨POLLERR, fun _ => 0, 0, 0, some 4⟩]]⟩] s ∧ ¬ s.spoll.Nodup :=
    ⟨_, _, rfl, run_det_iff.mpr rfl, by decide⟩
  exact twice (always 1 3 10 4 m made _ _ List.prefix_rfl s run).distinct

/-- The calls that keep the registered descriptors right: a `recv` that does not
come to a failing multicast socket, a `connect` without a socket or whose
`poll` succeeds. -/
def Spares (m : SMessenger) : Call → Prop
  | .recv env => ¬ m.Breaks env
  | .connect client polled => client = none ∨ polled = true
  | .others _ _ _ _ => True

variable {m m' : SMessenger} {call : Call}

theorem Sound.listenConn (sound : m.Sound) {listen : Listen}
    (handed : ∀ connection ∈ listen.accepted, m.Handed connection.1 connection.2) :
    (m.listenConn listen).2.Sound := by
  cases listen with
  | idle => exact sound
  | broken reopened =>
      cases reopened <;> exact sound.untouched ⟨rfl, rfl, fun fd => rfl⟩
  | incoming accepted =>
      cases accepted with
      | none => exact sound
      | some connection => exact sound.open (handed connection rfl)

theorem recv_decides (sound : m.Sound) (env : RecvEnv)
    (handed : ∀ connection ∈ env.listen.accepted, m.Handed connection.1 connection.2) :
    (m.Breaks env ∧ ¬ (m.recv env).2.Registered) ∨ (¬ m.Breaks env ∧ (m.recv env).2.Sound) := by
  have listened := sound.listenConn handed
  have eq : m.recv env = if (m.listenConn env.listen).1 < 0 then
      (none, (m.listenConn env.listen).2) else (m.listenConn env.listen).2.polls env.passes := rfl
  rw [eq, Breaks]
  by_cases failed : (m.listenConn env.listen).1 < 0
  · rw [if_pos failed]
    exact .inr ⟨fun breaks => absurd failed (Int.not_lt.mpr breaks.1), listened⟩
  · rw [if_neg failed, and_iff_right (Int.not_lt.mp failed)]
    exact (polls_decides listened env.passes).imp_left fun breaks => ⟨breaks.1, breaks.2.2⟩

/-- One call. -/
theorem after_registered_iff (sound : m.Sound) (possible : m.Possible call) :
    ((m.after call).Registered ↔ m.Spares call) ∧ (m.Spares call → (m.after call).Sound) := by
  cases call with
  | recv env =>
      rcases recv_decides sound env possible with ⟨breaks, broken⟩ | ⟨fine, sound'⟩
      · exact ⟨iff_of_false broken fun spares => spares breaks,
          fun spares => absurd breaks spares⟩
      · exact ⟨iff_of_true sound'.toRegistered fine, fun _ => sound'⟩
  | connect client polled =>
      cases client with
      | none => exact ⟨iff_of_true sound.toRegistered (.inl rfl), fun _ => sound⟩
      | some connection =>
          have handed := possible connection rfl
          cases polled with
          | true =>
              have sound' := sound.open handed
              exact ⟨iff_of_true sound'.toRegistered (.inr rfl), fun _ => sound'⟩
          | false =>
              have leaked := sound.not_registered_leaked handed
              have careless : ¬ m.Spares (.connect (some connection) false) := by simp [Spares]
              exact ⟨iff_of_false leaked careless, fun spares => absurd spares careless⟩
  | others fd bytes datagrams closes =>
      have sound' : (m.after (.others fd bytes datagrams closes)).Sound :=
        sound.untouched ((untouched_refl m).setSock (Sock.kind_receive _ _ _ _))
      exact ⟨iff_of_true sound'.toRegistered trivial, fun _ => sound'⟩

theorem sound_construct {ip : IP} {servsock mcsock : SocketType} {port : Port}
    (made : construct ip servsock port mcsock = some m) : m.Sound := by
  obtain ⟨_, made⟩ := Option.ite_none_left_eq_some.mp made
  obtain ⟨_, made⟩ := Option.ite_none_left_eq_some.mp made
  replace made := Option.some.inj made
  have spoll : m.spoll = [mcsock] := made ▸ rfl
  have own : m.mcsock = mcsock := made ▸ rfl
  have kind : ∀ fd, (m.sock fd).kind = if fd = mcsock then .dgram else .closed := by
    intro fd
    rw [← made]
    show (Function.update (fun _ => Sock.closed) mcsock (.dgram [] []) fd).kind = _
    rw [Function.update_apply]
    split <;> rfl
  refine ⟨⟨by simp [spoll], fun fd => ?_, fun fd member => ?_⟩, by simp [kind, own]⟩
  · rw [spoll, own, kind, List.mem_singleton]
    split <;> simp [*]
  · rw [spoll, List.mem_singleton] at member
    simp [kind, member]

/-- In every run from the constructor the registered descriptors are the right ones
in all states if and only if every call spares them. -/
theorem registered_iff {ip : IP} {servsock mcsock : SocketType} {port : Port}
    (made : construct ip servsock port mcsock = some m) (calls : List Call) :
    Always (Det step) Registered m calls ↔
      EachStep (Det step) (fun m call => m.Possible call → m.Spares call) m calls := by
  have start := sound_construct made
  rw [always_iff start.toRegistered]
  refine eachStep_iff (I := Sound) start ?_ ?_
  · rintro m call _ m' sound spares taken
    obtain ⟨possible, rfl⟩ := Option.ite_some_none_eq_some.mp taken
    exact (after_registered_iff sound possible).2 (spares possible)
  · rintro m call _ sound
    constructor
    · intro all possible
      exact (after_registered_iff sound possible).1.mp (all _ (if_pos possible))
    · rintro spares m' taken
      obtain ⟨possible, rfl⟩ := Option.ite_some_none_eq_some.mp taken
      exact (after_registered_iff sound possible).1.mpr (spares possible)

/-- A connection is made and closed by the other side. -/
theorem registered_iff_closed :
    ∃ m, construct 1 3 10 4 = some m ∧ Always (Det step) Registered m
      [.connect (some (5, .stream [] [] false 2)) true, .others 5 [] [] true,
       .connect none true] := by
  obtain ⟨m, made⟩ : ∃ m, construct 1 3 10 4 = some m := ⟨_, rfl⟩
  refine ⟨m, made, (registered_iff made _).mpr ?_⟩
  refine ⟨fun _ => .inr rfl, fun _ _ => ⟨fun _ => trivial, fun _ _ => ?_⟩⟩
  exact ⟨fun _ => .inl rfl, fun _ _ => trivial⟩

end SMessenger

end LibSBus
