import LibSBus.SMessenger.Sends
import LibSBus.SMessenger.Stack

/-!
Messages over connections. What the peers wrote reaches `recv` in pieces of any
size and on any number of connections at once. A frame is taken off a stream
only when all of it is there, so what is left on a stream is always a sequence
of frames, and what was returned for it are the frames before these.

A call returns as long as its stack is enough, and then it does all that it is there
for. It is not enough for a call that comes to parts of frames again and again.
-/

namespace LibSBus

open Lib

/-- A message that the kernel accepts whole. -/
def SendCall.inFull (message : Int × CString) : SendCall :=
  { msgtag := message.1, msg := message.2, accepts := some (hdrlen + message.2.length) }

/-- `wire` is what sending the messages one after the other wrote. -/
def Writes (tcpPort : Port) (messages : List (Int × CString)) (wire : CString) : Prop :=
  ∃ t, Run (Det (Sending.next tcpPort)) .start (messages.map SendCall.inFull) t ∧
    t.stream = wire

/-- The message `recv` makes of a frame. -/
def Frame.toSMsg (ip : IP) (socket : SocketType) (f : Frame) : SMsg :=
  { msgtag := f.msgtag, ip, port := f.port, socket, msg := f.data, error := false }

def Frame.triple (f : Frame) : Int × Port × CString := (f.msgtag, f.port, f.data)

def SMsg.triple (msg : SMsg) : Int × Port × CString := (msg.msgtag, msg.port, msg.msg)

/-- Messages that a header can carry are written as frames. -/
theorem exists_written_frames (tcpPort : Port) (messages : List (Int × CString))
    (carried : ∀ message ∈ messages, (SendCall.inFull message).Carried) :
    ∃ frames : List Frame,
      (∀ wire, Writes tcpPort messages wire → wire = framing.encodeAll frames) ∧
      frames.map Frame.triple = messages.map fun message => (message.1, tcpPort, message.2) := by
  have whole : ∀ (calls : List SendCall) (s : Sending),
      (∀ c ∈ calls, c.Carried ∧ c.accepts = some (hdrlen + c.msg.length)) →
      ∀ t, Run (Det (Sending.next tcpPort)) s calls t →
        t.stream = s.stream ++ calls.flatMap (SendCall.frame tcpPort) := by
    intro calls
    induction calls with
    | nil =>
        intro s _ t run
        cases run
        exact (List.append_nil _).symm
    | cons c calls ih =>
        intro s full t run
        obtain ⟨⟨small, accepts⟩, later⟩ := List.forall_mem_cons.mp full
        cases run with
        | cons head tail =>
            rw [Det, Sending.next, Sending.sendUnicast_whole tcpPort small accepts
              (Nat.le_refl _)] at head
            obtain rfl := Option.some.inj head
            rw [ih _ later t tail, List.flatMap_cons]
            exact List.append_assoc _ _ _
  have full : ∀ c ∈ messages.map SendCall.inFull,
      c.Carried ∧ c.accepts = some (hdrlen + c.msg.length) := by
    intro c hc
    obtain ⟨message, member, rfl⟩ := List.mem_map.mp hc
    exact ⟨carried message member, rfl⟩
  obtain ⟨frames, bytes, triples⟩ :=
    exists_frames tcpPort (messages.map SendCall.inFull) fun c hc => (full c hc).1
  refine ⟨frames, ?_, ?_⟩
  · rintro _ ⟨t, run, rfl⟩
    rw [whole _ _ full t run, bytes]
    rfl
  · rw [List.map_map] at triples
    exact triples

namespace Sock

/-- The bytes of a stream that have not been read. -/
def pending : Sock → CString
  | .stream wire buffer _ _ => buffer ++ wire
  | _ => []

@[simp] theorem arrive_arrive (s : Sock) (a b : Nat) :
    (s.arrive a).arrive b = s.arrive (a + b) := by
  cases s with
  | stream wire buffer eof remote =>
      simp only [arrive, List.drop_drop, List.append_assoc, ← List.take_add]
  | dgram wire queue => simp only [arrive, List.drop_drop, List.append_assoc, ← List.take_add]
  | closed => rfl

@[simp] theorem pending_arrive (s : Sock) (n : Nat) : (s.arrive n).pending = s.pending := by
  cases s <;> simp [arrive, pending]

end Sock

namespace SMessenger

variable {m m' m'' : SMessenger} {fd : SocketType} {look : Look}
  {frames : SocketType → List Frame}

/-- All that happened is that some bytes arrived. -/
structure Grown (m m' : SMessenger) : Prop where
  spoll : m'.spoll = m.spoll
  mcsock : m'.mcsock = m.mcsock
  sock : ∀ x, ∃ n, m'.sock x = (m.sock x).arrive n

theorem Grown.trans (first : Grown m m') (second : Grown m' m'') : Grown m m'' := by
  refine ⟨second.spoll.trans first.spoll, second.mcsock.trans first.mcsock, fun x => ?_⟩
  obtain ⟨a, eq⟩ := first.sock x
  obtain ⟨b, eq'⟩ := second.sock x
  exact ⟨a + b, by rw [eq', eq, Sock.arrive_arrive]⟩

theorem grown_arrive (m : SMessenger) (arrivals : SocketType → Nat) :
    Grown m (m.arrive arrivals) :=
  ⟨rfl, rfl, fun x => ⟨arrivals x, rfl⟩⟩

theorem grown_setSock {s : Sock} {n : Nat} (eq : s = (m.sock fd).arrive n) :
    Grown m (m.setSock fd s) := by
  refine ⟨rfl, rfl, fun x => ?_⟩
  by_cases here : x = fd
  · subst here
    exact ⟨n, by rw [setSock_self, eq]⟩
  · refine ⟨0, ?_⟩
    rw [setSock_of_ne m s here, Sock.arrive_zero]

/-- The whole of `f` is at the head of what has arrived on `fd`. -/
def Complete (m : SMessenger) (fd : SocketType) (f : Frame) : Prop :=
  ∃ wire buffer eof remote, m.sock fd = .stream wire buffer eof remote ∧ f.encode <+: buffer

theorem Complete.grown {f : Frame} (complete : m.Complete fd f) (grown : Grown m m') :
    m'.Complete fd f := by
  obtain ⟨wire, buffer, eof, remote, eq, whole⟩ := complete
  obtain ⟨n, eq'⟩ := grown.sock fd
  rw [eq, Sock.arrive] at eq'
  exact ⟨_, _, _, _, eq', whole.trans (List.prefix_append _ _)⟩

/-- The invariant: the multicast socket is silent, and what is pending on the
registered connections are the frames still to be returned. -/
structure Streams (m : SMessenger) (frames : SocketType → List Frame) : Prop where
  positive : ∀ fd ∈ m.spoll, 0 < fd
  silent : m.sock m.mcsock = .dgram [] []
  pending : ∀ fd ∈ m.spoll, fd ≠ m.mcsock → ∃ wire buffer remote,
    m.sock fd = .stream wire buffer false remote ∧ buffer ++ wire = framing.encodeAll (frames fd)

theorem Streams.grown (streams : Streams m frames) (grown : Grown m m') : Streams m' frames := by
  refine ⟨by rw [grown.spoll]; exact streams.positive, ?_, ?_⟩
  · obtain ⟨n, eq⟩ := grown.sock m.mcsock
    rw [grown.mcsock, eq, streams.silent]
    simp [Sock.arrive]
  · rw [grown.spoll, grown.mcsock]
    intro fd member other
    obtain ⟨wire, buffer, remote, eq, bytes⟩ := streams.pending fd member other
    obtain ⟨n, eq'⟩ := grown.sock fd
    rw [eq, Sock.arrive] at eq'
    exact ⟨_, _, _, eq', by rw [← bytes]; simp⟩

/-- The frame `f` was taken off `fd`; elsewhere bytes arrived. -/
structure Taken (m : SMessenger) (fd : SocketType) (f : Frame) (m' : SMessenger) : Prop where
  registered : fd ∈ m.spoll
  connection : fd ≠ m.mcsock
  spoll : m'.spoll = m.spoll
  mcsock : m'.mcsock = m.mcsock
  here : ∃ n wire buffer remote, (m.sock fd).arrive n = .stream wire buffer false remote ∧
    f.encode <+: buffer ∧ m'.sock fd = .stream wire (buffer.drop f.encode.length) false remote
  elsewhere : ∀ x, x ≠ fd → ∃ n, m'.sock x = (m.sock x).arrive n

/-- `nextMsg` on a stream of frames takes the next one off if all of it has
arrived, and otherwise lets bytes arrive. -/
theorem nextMsg_frames {wire buffer : CString} (remote : IP) (late later : Nat)
    {expected : List Frame} (bytes : buffer ++ wire = framing.encodeAll expected) :
    (∃ n, nextMsg maxDatalen (.stream wire buffer false remote) late later =
        (.pending, (Sock.stream wire buffer false remote).arrive n) ∧
      ∀ f : Frame, ¬ f.encode <+: buffer) ∨
    ∃ f rest n wire' buffer', expected = f :: rest ∧
      (Sock.stream wire buffer false remote).arrive n = .stream wire' buffer' false remote ∧
      f.encode <+: buffer' ∧ nextMsg maxDatalen (.stream wire buffer false remote) late later =
        (.message f.msgtag remote f.port f.data,
          .stream wire' (buffer'.drop f.encode.length) false remote) := by
  have long : ∀ f : Frame, f.encode <+: buffer → hdrlen ≤ buffer.length := by
    intro f whole
    refine Nat.le_trans ?_ whole.length_le
    rw [Frame.length_encode]
    exact Nat.le_add_right _ _
  by_cases empty : buffer = []
  · subst empty
    refine .inl ⟨0, ?_, fun f whole => absurd (long f whole) (by decide)⟩
    rw [nextMsg_stream_nil, Sock.arrive_zero]
    rfl
  rw [nextMsg_stream empty]
  dsimp only
  by_cases short : buffer.length < hdrlen
  · refine .inl ⟨0, by rw [if_pos short, Sock.arrive_zero], fun f whole => ?_⟩
    exact absurd (long f whole) (Nat.not_le.mpr short)
  rw [if_neg short]
  have part : buffer ++ wire.take late <+: framing.encodeAll expected := by
    rw [← bytes, List.prefix_append_right_inj]
    exact List.take_prefix late wire
  by_cases whole : ∃ f rest, expected = f :: rest ∧ f.encode <+: buffer ++ wire.take late
  · obtain ⟨f, rest, rfl, whole⟩ := whole
    have found : scan (buffer ++ wire.take late) = .frame f f.encode.length :=
      framing.scan_of_prefix whole
    refine .inr ⟨f, rest, late + later, (wire.drop late).drop later,
      buffer ++ wire.take late ++ (wire.drop late).take later, rfl, ?_, ?_, ?_⟩
    · rw [← Sock.arrive_arrive]
      rfl
    · exact whole.trans (List.prefix_append _ _)
    · rw [found]
      rfl
  · have none : scan (buffer ++ wire.take late) = .incomplete := by
      apply framing.scan_of_not_prefix part
      intro f rest eq here
      exact whole ⟨f, rest, eq, here⟩
    refine .inl ⟨late, by rw [none], fun f here => ?_⟩
    have found : scan (buffer ++ wire.take late) = .frame f f.encode.length :=
      framing.scan_of_prefix (here.trans (List.prefix_append _ _))
    rw [none] at found
    cases found

/-- A visit reads the next frame of the entry, or lets bytes arrive. The latter
only if the entry is not reported readable or has no complete frame. -/
theorem visit_streams (streams : Streams m frames) (member : fd ∈ m.spoll)
    (fine : ¬ look.Problem) :
    ((m.visit fd look).1 = none ∧ Grown m (m.visit fd look).2 ∧
      (look.has POLLIN → ∀ f, ¬ m.Complete fd f)) ∨
    ∃ f rest ip, frames fd = f :: rest ∧ (m.visit fd look).1 = some (f.toSMsg ip fd) ∧
      Taken m fd f (m.visit fd look).2 := by
  have used := streams.positive fd member
  have arrived := grown_arrive m look.arrivals
  by_cases readable : look.has POLLIN
  swap
  · rw [visit_idle (.inr ⟨fine, readable⟩)]
    exact .inl ⟨rfl, arrived, fun h => absurd h readable⟩
  by_cases multicast : fd = m.mcsock
  · subst multicast
    have opened : (m.arrive look.arrivals).sock m.mcsock = .dgram [] [] := by
      rw [arrive_sock, streams.silent]
      simp [Sock.arrive]
    have read : nextMsg maxDatalen ((m.arrive look.arrivals).sock m.mcsock) look.late look.later =
        (.pending, ((m.arrive look.arrivals).sock m.mcsock).arrive 0) := by
      rw [Sock.arrive_zero, opened]
      rfl
    rw [visit_pending used fine readable read]
    refine .inl ⟨rfl, arrived.trans (grown_setSock rfl), ?_⟩
    rintro _ f ⟨wire, buffer, eof, remote, eq, _⟩
    rw [streams.silent] at eq
    cases eq
  obtain ⟨wire, buffer, remote, now, bytes⟩ :=
    (streams.grown arrived).pending fd member multicast
  have later : ∀ f, m.Complete fd f → f.encode <+: buffer := by
    intro f complete
    obtain ⟨_, _, _, _, eq, whole⟩ := complete.grown arrived
    rw [now] at eq
    cases eq
    exact whole
  rcases nextMsg_frames remote look.late look.later bytes with
    ⟨n, read, incomplete⟩ | ⟨f, rest, n, wire', buffer', eq, grows, whole, read⟩
  · rw [← now] at read
    rw [visit_pending used fine readable read]
    exact .inl ⟨rfl, arrived.trans (grown_setSock rfl), fun _ f complete =>
      incomplete f (later f complete)⟩
  · rw [← now] at read
    rw [visit_message used fine readable read]
    refine .inr ⟨f, rest, remote, eq, rfl, member, multicast, rfl, rfl, ?_, fun x other => ?_⟩
    · refine ⟨look.arrivals fd + n, wire', buffer', remote, ?_, whole, setSock_self _ _ _⟩
      rw [← Sock.arrive_arrive, ← arrive_sock, now, grows]
    · exact ⟨look.arrivals x, setSock_of_ne _ _ other⟩

theorem Grown.taken {f : Frame} (grown : Grown m m') (taken : Taken m' fd f m'') :
    Taken m fd f m'' := by
  obtain ⟨registered, connection, spoll, mcsock, ⟨b, wire, buffer, remote, eq, here⟩,
    elsewhere⟩ := taken
  rw [grown.spoll] at registered spoll
  rw [grown.mcsock] at connection mcsock
  refine ⟨registered, connection, spoll, mcsock, ?_, fun x other => ?_⟩
  · obtain ⟨a, eq'⟩ := grown.sock fd
    rw [eq', Sock.arrive_arrive] at eq
    exact ⟨a + b, wire, buffer, remote, eq, here⟩
  · obtain ⟨a, eq'⟩ := grown.sock x
    obtain ⟨b, eq''⟩ := elsewhere x other
    exact ⟨a + b, by rw [eq'', eq', Sock.arrive_arrive]⟩

theorem Streams.taken {f : Frame} {rest : List Frame} (streams : Streams m frames)
    (taken : Taken m fd f m') (eq : frames fd = f :: rest) :
    Streams m' (Function.update frames fd rest) := by
  refine ⟨by rw [taken.spoll]; exact streams.positive, ?_, ?_⟩
  · obtain ⟨n, eq'⟩ := taken.elsewhere m.mcsock taken.connection.symm
    rw [taken.mcsock, eq', streams.silent]
    simp [Sock.arrive]
  · rw [taken.spoll, taken.mcsock]
    intro x member other
    obtain ⟨wire, buffer, remote, now, bytes⟩ := streams.pending x member other
    by_cases here : x = fd
    · subst here
      obtain ⟨n, wire', buffer', remote', grows, whole, after⟩ := taken.here
      have pending := congrArg Sock.pending grows
      rw [Sock.pending_arrive, now] at pending
      refine ⟨wire', buffer'.drop f.encode.length, remote', after, ?_⟩
      have all : buffer' ++ wire' = framing.encodeAll (f :: rest) := by
        rw [← eq, ← bytes]
        exact pending.symm
      rw [Function.update_self]
      exact framing.drop_first all whole
    · obtain ⟨n, eq'⟩ := taken.elsewhere x here
      rw [now, Sock.arrive] at eq'
      exact ⟨_, _, remote, eq', by rw [Function.update_of_ne here, ← bytes]; simp⟩

/-- A pass takes one frame, or it ends without one and then no entry reported
readable had a complete frame. -/
theorem pass_streams (entries : List (SocketType × Look)) (streams : Streams m frames)
    (members : ∀ entry ∈ entries, entry.1 ∈ m.spoll ∧ ¬ entry.2.Problem) :
    ((m.pass entries).1 = none ∧ Grown m (m.pass entries).2 ∧
      ∀ entry ∈ entries, entry.2.has POLLIN → ∀ f, ¬ m.Complete entry.1 f) ∨
    ∃ fd f rest ip, frames fd = f :: rest ∧ (m.pass entries).1 = some (f.toSMsg ip fd) ∧
      Taken m fd f (m.pass entries).2 := by
  induction entries generalizing m with
  | nil =>
      refine .inl ⟨rfl, ⟨rfl, rfl, fun x => ⟨0, (Sock.arrive_zero _).symm⟩⟩, ?_⟩
      intro entry mem
      cases mem
  | cons entry entries ih =>
      obtain ⟨fd, look⟩ := entry
      obtain ⟨⟨member, fine⟩, later⟩ := List.forall_mem_cons.mp members
      rw [pass]
      rcases visit_streams streams member fine with
        ⟨none, grown, incomplete⟩ | ⟨f, rest, ip, eq, some, taken⟩
      · rcases visited : m.visit fd look with ⟨out, m'⟩
        rw [visited] at none grown
        dsimp only at none grown
        subst none
        dsimp only
        rcases ih (streams.grown grown) (by rw [grown.spoll]; exact later) with
          ⟨none, grown', incomplete'⟩ | ⟨x, f, rest, ip, eq, some, taken⟩
        · refine .inl ⟨none, grown.trans grown', List.forall_mem_cons.mpr ⟨incomplete, ?_⟩⟩
          intro entry mem readable f complete
          exact incomplete' entry mem readable f (complete.grown grown)
        · exact .inr ⟨x, f, rest, ip, eq, some, grown.taken taken⟩
      · rcases visited : m.visit fd look with ⟨out, m'⟩
        rw [visited] at some taken
        dsimp only at some taken
        subst some
        exact .inr ⟨fd, f, rest, ip, eq, rfl, taken⟩

theorem polls_streams (passes : List (List Look)) (streams : Streams m frames)
    (fine : ∀ looks ∈ passes, ∀ look ∈ looks, ¬ look.Problem) :
    ((m.polls passes).1 = none ∧ Grown m (m.polls passes).2) ∨
    ∃ fd f rest ip, frames fd = f :: rest ∧ (m.polls passes).1 = some (f.toSMsg ip fd) ∧
      Taken m fd f (m.polls passes).2 := by
  induction passes generalizing m with
  | nil => exact .inl ⟨rfl, rfl, rfl, fun x => ⟨0, (Sock.arrive_zero _).symm⟩⟩
  | cons looks more ih =>
      obtain ⟨here, later⟩ := List.forall_mem_cons.mp fine
      have members : ∀ entry ∈ m.spoll.zip looks, entry.1 ∈ m.spoll ∧ ¬ entry.2.Problem :=
        fun entry mem => ⟨(List.of_mem_zip mem).1, here _ (List.of_mem_zip mem).2⟩
      rw [polls]
      rcases visited : m.pass (m.spoll.zip looks) with ⟨out, m'⟩
      rcases pass_streams _ streams members with
        ⟨none, grown, _⟩ | ⟨fd, f, rest, ip, eq, some, taken⟩
      · rw [visited] at none grown
        dsimp only at none grown
        subst none
        dsimp only
        rcases ih (streams.grown grown) later with
          ⟨none, grown'⟩ | ⟨x, f, rest, ip, eq, some, taken⟩
        · exact .inl ⟨none, grown.trans grown'⟩
        · exact .inr ⟨x, f, rest, ip, eq, some, grown.taken taken⟩
      · rw [visited] at some taken
        dsimp only at some taken
        subst some
        exact .inr ⟨fd, f, rest, ip, eq, rfl, taken⟩

section Runs

variable (sent : SocketType → List (Int × CString)) (ports : SocketType → Port)

/-- A fresh connection on `fd`: the peer has written its messages and none of
their bytes has arrived. -/
def Fresh (fd : SocketType) (s : Sock) : Prop :=
  ∃ wire remote, Writes (ports fd) (sent fd) wire ∧ s = .stream wire [] false remote

/-- The start: connections on which nothing has arrived yet. -/
structure Connected (m : SMessenger) : Prop where
  positive : ∀ fd ∈ m.spoll, 0 < fd
  silent : m.sock m.mcsock = .dgram [] []
  fresh : ∀ fd ∈ m.spoll, fd ≠ m.mcsock → Fresh sent ports fd (m.sock fd)

/-- The environment of a call in which `poll` reports no problem. A connection
may be accepted, with an unused number. -/
def Quiet (m : SMessenger) (env : RecvEnv) : Prop :=
  (∀ looks ∈ env.passes, ∀ look ∈ looks, ¬ look.Problem) ∧
    match env.listen with
    | .idle => True
    | .broken _ => False
    | .incoming none => True
    | .incoming (some (fd, s)) =>
        0 < fd ∧ fd ∉ m.spoll ∧ fd ≠ m.mcsock ∧ Fresh sent ports fd s

/-- What a sequence of calls returns, up to one that has not enough stack. -/
def returnedWithin (stack : Nat) (m : SMessenger) : List RecvEnv → List SMsg
  | [] => []
  | env :: envs =>
      match m.recvWithin stack env with
      | none => []
      | some (out, m) => out.toList ++ m.returnedWithin stack envs

/-- A call takes exactly the frame it returns off its socket, and nothing off
any other; without a message it takes nothing off any socket. -/
def Consumes (before : SMessenger) (out : Option SMsg) (after : SMessenger) : Prop :=
  match out with
  | none => ∀ x, (after.sock x).pending = (before.sock x).pending
  | some msg =>
      hdrlen + msg.msg.length ≤ (before.sock msg.socket).pending.length ∧
        (after.sock msg.socket).pending =
          (before.sock msg.socket).pending.drop (hdrlen + msg.msg.length) ∧
        ∀ x, x ≠ msg.socket → (after.sock x).pending = (before.sock x).pending

/-- A pass of the call finds an entry reported readable with a whole frame at its head. -/
def Due (m : SMessenger) (env : RecvEnv) : Prop :=
  0 ≤ (m.listenConn env.listen).1 ∧ ∃ before looks after, env.passes = before ++ looks :: after ∧
    ∃ fd look f, (fd, look) ∈ ((m.listenConn env.listen).2.polls before).2.spoll.zip looks ∧
      look.has POLLIN ∧ ((m.listenConn env.listen).2.polls before).2.Complete fd f

/-- The call returns, it takes what it returns off the sockets and nothing else, and if a
message is due it returns one. -/
def Served (stack : Nat) (m : SMessenger) (env : RecvEnv) : Prop :=
  ∃ out m', m.recvWithin stack env = some (out, m') ∧
    Consumes (m.listenConn env.listen).2 out m' ∧
    (m.Due env → ∃ msg, out = some msg ∧ msg.error = false)

variable {sent ports} {all : SocketType → List Frame}

theorem Grown.consumes (grown : Grown m m') : Consumes m none m' := by
  intro x
  obtain ⟨n, eq⟩ := grown.sock x
  rw [eq, Sock.pending_arrive]

theorem Taken.consumes {f : Frame} (taken : Taken m fd f m') (ip : IP) :
    Consumes m (some (f.toSMsg ip fd)) m' := by
  obtain ⟨n, wire, buffer, remote, grows, whole, after⟩ := taken.here
  have pending : (m.sock fd).pending = buffer ++ wire := by
    rw [← Sock.pending_arrive _ n, grows, Sock.pending]
  have size := whole.length_le
  rw [Frame.length_encode] at size
  refine ⟨?_, ?_, fun x other => ?_⟩
  · show hdrlen + f.data.length ≤ (m.sock fd).pending.length
    rw [pending, List.length_append]
    omega
  · show (m'.sock fd).pending = (m.sock fd).pending.drop (hdrlen + f.data.length)
    rw [pending, after, Sock.pending, List.drop_append_of_le_length size, Frame.length_encode]
  · obtain ⟨n, eq⟩ := taken.elsewhere x other
    rw [eq, Sock.pending_arrive]

/-- The invariant of a run: what is pending are the frames not yet returned, and
on the numbers not in use that is all of them. -/
def Remaining (all : SocketType → List Frame) (m : SMessenger)
    (frames : SocketType → List Frame) : Prop :=
  Streams m frames ∧ ∀ fd, fd ∉ m.spoll → frames fd = all fd

/-- The frames stand for what was sent. -/
def StandsFor (sent : SocketType → List (Int × CString)) (ports : SocketType → Port)
    (all : SocketType → List Frame) : Prop :=
  ∀ fd wire, Writes (ports fd) (sent fd) wire → wire = framing.encodeAll (all fd)

theorem remaining_listenConn {env : RecvEnv} (stands : StandsFor sent ports all)
    (remaining : Remaining all m frames) (quiet : Quiet sent ports m env) :
    Remaining all (m.listenConn env.listen).2 frames := by
  obtain ⟨streams, unused⟩ := remaining
  have listens := quiet.2
  rcases env with ⟨_ | _ | _ | ⟨fd, s⟩, passes⟩
  · exact ⟨streams, unused⟩
  · exact absurd listens id
  · exact ⟨streams, unused⟩
  · obtain ⟨used, new, connection, wire, remote, writes, rfl⟩ := listens
    refine ⟨⟨?_, ?_, ?_⟩, fun x hx => unused x fun old => hx (List.mem_append_left _ old)⟩
    · intro x hx
      rcases List.mem_append.mp hx with old | here
      · exact streams.positive x old
      · exact List.mem_singleton.mp here ▸ used
    · exact (setSock_of_ne m _ connection.symm).trans streams.silent
    · intro x hx other
      by_cases here : x = fd
      · subst here
        refine ⟨wire, [], remote, setSock_self _ _ _, ?_⟩
        rw [List.nil_append, unused x new]
        exact stands x wire writes
      · have old : x ∈ m.spoll := by
          rcases List.mem_append.mp hx with old | new
          · exact old
          · exact absurd (List.mem_singleton.mp new) here
        obtain ⟨wire', buffer, remote', eq, bytes⟩ := streams.pending x old other
        exact ⟨wire', buffer, remote', (setSock_of_ne m _ here).trans eq, bytes⟩

theorem recv_streams {env : RecvEnv} (stands : StandsFor sent ports all)
    (remaining : Remaining all m frames) (quiet : Quiet sent ports m env) :
    Consumes (m.listenConn env.listen).2 (m.recv env).1 (m.recv env).2 ∧
      ∃ frames', Remaining all (m.recv env).2 frames' ∧ ∀ fd, (frames fd).map Frame.triple =
        ((m.recv env).1.toList.filter (·.socket = fd)).map SMsg.triple ++
          (frames' fd).map Frame.triple := by
  have ⟨streams, unused⟩ := remaining_listenConn stands remaining quiet
  rw [recv]
  rcases listened : m.listenConn env.listen with ⟨res, m₁⟩
  rw [listened] at streams unused
  dsimp only at streams unused ⊢
  split
  case isTrue failed =>
    have still : Grown m₁ m₁ := ⟨rfl, rfl, fun x => ⟨0, (Sock.arrive_zero _).symm⟩⟩
    exact ⟨still.consumes, frames, ⟨streams, unused⟩, fun fd => rfl⟩
  case isFalse ready =>
    rcases polls_streams env.passes streams quiet.1 with
      ⟨none, grown⟩ | ⟨fd, f, rest, ip, eq, some, taken⟩
    · rw [none]
      refine ⟨grown.consumes, frames, ⟨streams.grown grown, ?_⟩, fun fd => rfl⟩
      rw [grown.spoll]
      exact unused
    · rw [some]
      refine ⟨taken.consumes ip, _, ⟨streams.taken taken eq, fun x hx => ?_⟩, fun x => ?_⟩
      · rw [taken.spoll] at hx
        rw [Function.update_of_ne, unused x hx]
        rintro rfl
        exact hx taken.registered
      · by_cases here : x = fd
        · subst here
          rw [Function.update_self, eq]
          simp [Frame.toSMsg, SMsg.triple, Frame.triple]
        · rw [Function.update_of_ne here]
          simp [Frame.toSMsg, Ne.symm here]

/-- A message that is due is returned. -/
theorem recv_due {env : RecvEnv} (stands : StandsFor sent ports all)
    (remaining : Remaining all m frames) (quiet : Quiet sent ports m env) (due : m.Due env) :
    ∃ msg, (m.recv env).1 = some msg ∧ msg.error = false := by
  have streams := (remaining_listenConn stands remaining quiet).1
  have eq : m.recv env = if (m.listenConn env.listen).1 < 0 then
      (none, (m.listenConn env.listen).2) else (m.listenConn env.listen).2.polls env.passes := rfl
  obtain ⟨listens, before, looks, after, passes, fd, look, f, member, readable, complete⟩ := due
  rw [eq, if_neg (Int.not_lt.mpr listens)]
  have fine := quiet.1
  generalize (m.listenConn env.listen).2 = m₁ at streams member complete ⊢
  rcases polls_streams env.passes streams fine with ⟨none, _⟩ | ⟨_, g, _, ip, _, given, _⟩
  swap
  · exact ⟨_, given, rfl⟩
  -- without a message all passes were made, the one that finds the frame among them
  rw [passes, polls_append] at none
  rw [passes] at fine
  split at none
  case isFalse given => exact absurd none given
  case isTrue silent =>
    have fine' := fine looks (List.mem_append_right _ List.mem_cons_self)
    rcases polls_streams before streams fun x mem => fine x (List.mem_append_left _ mem) with
      ⟨_, grown⟩ | ⟨_, _, _, _, _, given, _⟩
    swap
    · rw [silent] at given
      cases given
    have members : ∀ entry ∈ (m₁.polls before).2.spoll.zip looks,
        entry.1 ∈ (m₁.polls before).2.spoll ∧ ¬ entry.2.Problem :=
      fun entry mem => ⟨(List.of_mem_zip mem).1, fine' _ (List.of_mem_zip mem).2⟩
    rw [polls_cons] at none
    rcases pass_streams _ (streams.grown grown) members with
      ⟨_, _, incomplete⟩ | ⟨_, _, _, _, _, given, _⟩
    · exact absurd complete (incomplete _ member readable f)
    · rw [if_neg (by rw [given]; simp), given] at none
      cases none

/-- Under the invariant a call is served if and only if its stack is enough. -/
theorem Remaining.served_iff {env : RecvEnv} {stack : Nat} (stands : StandsFor sent ports all)
    (remaining : Remaining all m frames) (quiet : Quiet sent ports m env) :
    Served stack m env ↔ Fits stack m env := by
  constructor
  · rintro ⟨out, m', returns, _⟩
    exact (recvWithin_eq_some_iff.mp returns).1
  · intro fits
    exact ⟨_, _, recvWithin_eq_some_iff.mpr ⟨fits, rfl⟩, (recv_streams stands remaining quiet).1,
      recv_due stands remaining quiet⟩

theorem returned_streams (stack : Nat) {envs : List RecvEnv} (stands : StandsFor sent ports all)
    (remaining : Remaining all m frames)
    (quiet : EachStep (Det (nextWithin stack)) (Quiet sent ports) m envs) :
    ∃ left : SocketType → List Frame, ∀ fd, (frames fd).map Frame.triple =
      ((m.returnedWithin stack envs).filter (·.socket = fd)).map SMsg.triple ++
        (left fd).map Frame.triple := by
  induction envs generalizing m frames with
  | nil => exact ⟨frames, fun fd => rfl⟩
  | cons env envs ih =>
      obtain ⟨_, frames₁, remaining₁, split₁⟩ := recv_streams stands remaining quiet.1
      rw [returnedWithin]
      rcases recvWithin_cases stack m env with ⟨_, full⟩ | ⟨_, returns⟩
      · rw [full]
        exact ⟨frames, fun fd => rfl⟩
      · have next : nextWithin stack m env = some (m.recv env).2 := by
          rw [nextWithin, returns]
          rfl
        obtain ⟨left, split'⟩ := ih remaining₁ (quiet.2 _ next)
        refine ⟨left, fun fd => ?_⟩
        rw [returns, split₁ fd, split' fd]
        dsimp only
        rw [List.filter_append, List.map_append, List.append_assoc]

/-- In every run in which `poll` reports no problem and nobody closes, what `recv` has
returned for a connection is an initial part of what was sent on it. And every call
returns, takes exactly what it returns, and returns a message that is due, if and only if
for every call the stack is enough. -/
theorem recv_returns_what_was_sent (stack : Nat) {envs : List RecvEnv}
    (carried : ∀ fd, ∀ message ∈ sent fd, (SendCall.inFull message).Carried)
    (connected : Connected sent ports m)
    (quiet : EachStep (Det (nextWithin stack)) (Quiet sent ports) m envs) :
    (∀ fd, ((m.returnedWithin stack envs).filter (·.socket = fd)).map SMsg.triple <+:
      (sent fd).map fun message => (message.1, ports fd, message.2)) ∧
    (EachStep (Det (nextWithin stack)) (Served stack) m envs ↔
      EachStep (Det (nextWithin stack)) (Fits stack) m envs) := by
  choose all stands triples using fun fd => exists_written_frames (ports fd) (sent fd) (carried fd)
  have start : Remaining all m all := by
    refine ⟨⟨connected.positive, connected.silent, fun fd member other => ?_⟩, fun _ _ => rfl⟩
    obtain ⟨wire, remote, writes, eq⟩ := connected.fresh fd member other
    exact ⟨wire, [], remote, eq, stands fd wire writes⟩
  constructor
  · intro fd
    obtain ⟨left, split⟩ := returned_streams stack stands start quiet
    rw [← triples fd, split fd]
    exact List.prefix_append _ _
  · have both : EachStep (Det (nextWithin stack))
          (fun m env => Served stack m env ∧ Quiet sent ports m env) m envs ↔
        EachStep (Det (nextWithin stack))
          (fun m env => Fits stack m env ∧ Quiet sent ports m env) m envs := by
      refine eachStep_iff (I := fun m => ∃ frames, Remaining all m frames) ⟨all, start⟩ ?_ ?_
      · rintro m env _ m' ⟨frames, remaining⟩ ⟨_, quiet⟩ taken
        obtain ⟨⟨out, _⟩, returns, rfl⟩ := Option.map_eq_some_iff.mp taken
        obtain ⟨_, frames', remaining', _⟩ := recv_streams stands remaining quiet
        rw [(recvWithin_eq_some_iff.mp returns).2] at remaining'
        exact ⟨frames', remaining'⟩
      · rintro m env _ ⟨frames, remaining⟩
        exact and_congr_left fun quiet => remaining.served_iff stands quiet
    rwa [eachStep_and, eachStep_and, and_iff_left quiet, and_iff_left quiet] at both

/-- One connection, on which the peer has sent two messages. -/
def twoMessages : SMessenger :=
  { servsock := 3, mcsock := 4, ip := 1, port := 1, spoll := [4, 5]
    sock := fun fd =>
      if fd = 4 then .dgram [] []
      else if fd = 5 then
        .stream [0, 7, 0, 9, 0, 0, 0, 2, 1, 2, 0, 8, 0, 9, 0, 0, 0, 0] [] false 2
      else .closed }

theorem twoMessages_carried (fd : SocketType) :
    ∀ message ∈ (if fd = 5 then [(7, [1, 2]), (8, [])] else []),
      (SendCall.inFull message).Carried := by
  intro message member
  by_cases here : fd = 5
  · rw [if_pos here] at member
    rcases List.mem_cons.mp member with rfl | last
    · exact ⟨by decide, by decide⟩
    · rw [List.mem_singleton.mp last]
      exact ⟨by decide, by decide⟩
  · rw [if_neg here] at member
    cases member

theorem twoMessages_connected :
    Connected (fun fd => if fd = 5 then [(7, [1, 2]), (8, [])] else []) (fun _ => 9)
      twoMessages := by
  refine ⟨by decide, rfl, ?_⟩
  intro fd member other
  obtain rfl : fd = 5 := by
    rcases List.mem_cons.mp member with rfl | last
    · exact absurd rfl other
    · exact List.mem_singleton.mp last
  exact ⟨_, 2, ⟨_, run_det_iff.mpr rfl, rfl⟩, rfl⟩

/-- A call during which the first message arrives in two pieces. -/
def twoPieces : RecvEnv :=
  { listen := .idle
    passes := [
      [⟨0, fun _ => 0, 0, 0, none⟩, ⟨POLLIN, fun _ => 9, 0, 0, none⟩],
      [⟨0, fun _ => 0, 0, 0, none⟩, ⟨POLLIN, fun _ => 0, 1, 0, none⟩]] }

theorem recv_returns_what_was_sent_two_pieces :
    (twoMessages.returnedWithin (8 * 1024 * 1024) [twoPieces]).length = 1 ∧
      (∀ fd, ((twoMessages.returnedWithin (8 * 1024 * 1024) [twoPieces]).filter
          (·.socket = fd)).map SMsg.triple <+:
        (if fd = 5 then [(7, [1, 2]), (8, [])] else []).map
          fun message : Int × CString => (message.1, (9 : Port), message.2)) ∧
      EachStep (Det (nextWithin (8 * 1024 * 1024))) (Served (8 * 1024 * 1024)) twoMessages
        [twoPieces] := by
  have quiet : EachStep (Det (nextWithin (8 * 1024 * 1024)))
      (Quiet (fun fd => if fd = 5 then [(7, [1, 2]), (8, [])] else []) (fun _ => 9))
      twoMessages [twoPieces] := by
    refine ⟨⟨?_, trivial⟩, fun _ _ => trivial⟩
    simp only [twoPieces, Look.Problem, Look.has]
    decide
  have all := recv_returns_what_was_sent (8 * 1024 * 1024) twoMessages_carried
    twoMessages_connected quiet
  obtain ⟨out, m', returns⟩ : ∃ out m',
      twoMessages.recvWithin (8 * 1024 * 1024) twoPieces = some (out, m') := ⟨_, _, rfl⟩
  have fits := (recvWithin_eq_some_iff.mp returns).1
  exact ⟨by decide +kernel, all.1, all.2.mpr ⟨fits, fun _ _ => trivial⟩⟩

/-- Nine passes, in each of which one more byte has arrived. -/
def byteByByte : RecvEnv :=
  { listen := .idle
    passes := List.replicate 9
      [⟨0, fun _ => 0, 0, 0, none⟩, ⟨POLLIN, fun _ => 1, 0, 0, none⟩] }

/-- On a stack of eight megabytes a call cannot read so slow a message. -/
theorem recv_overruns_stack :
    ¬ ∀ sent ports m envs,
      (∀ fd, ∀ message ∈ sent fd, (SendCall.inFull message).Carried) → Connected sent ports m →
      EachStep (Det (nextWithin (8 * 1024 * 1024))) (Quiet sent ports) m envs →
      EachStep (Det (nextWithin (8 * 1024 * 1024))) (Served (8 * 1024 * 1024)) m envs := by
  intro always
  have full : twoMessages.recvWithin (8 * 1024 * 1024) byteByByte = none := by rfl
  have each := always _ _ twoMessages [byteByByte] twoMessages_carried twoMessages_connected (by
    refine ⟨⟨?_, trivial⟩, fun _ _ => trivial⟩
    simp only [byteByByte, Look.Problem, Look.has]
    decide)
  obtain ⟨out, m', returns, _⟩ := each.1
  rw [full] at returns
  cases returns

end Runs

end SMessenger

end LibSBus
