import LibSBus.SMessenger.Registered
import LibSBus.SMessenger.Streams

/-!
A connection whose peer sends and then goes away. `recv` tests `POLLHUP`, `POLLERR`
and `POLLNVAL` before `POLLIN`, and drops a connection for which one of them is
reported with all that is still in its queue. Without them it reads one message
a call, and it only sees that the peer has closed when the queue is empty. So
the frames that have arrived are returned before the connection is reported
exactly if no call comes to it with one of the three events before that.
-/

namespace LibSBus

open Lib

namespace SMessenger

/-- A pass comes to `fd`, and `poll` has reported a problem for it. -/
def MeetsIn (fd : SocketType) (m : SMessenger) : List (SocketType × Look) → Prop
  | [] => False
  | (x, look) :: rest =>
      (x = fd ∧ look.Problem) ∨
        ((m.visit x look).1 = none ∧ (m.visit x look).2.MeetsIn fd rest)

def MeetsInLoop (fd : SocketType) (m : SMessenger) : List (List Look) → Prop
  | [] => False
  | looks :: more =>
      m.MeetsIn fd (m.spoll.zip looks) ∨
        ((m.pass (m.spoll.zip looks)).1 = none ∧
          (m.pass (m.spoll.zip looks)).2.MeetsInLoop fd more)

/-- A call of `recv` comes to `fd`, and `poll` has reported a problem for it. -/
def Meets (fd : SocketType) (m : SMessenger) (env : RecvEnv) : Prop :=
  0 ≤ (m.listenConn env.listen).1 ∧ (m.listenConn env.listen).2.MeetsInLoop fd env.passes

instance decidableMeetsIn (fd : SocketType) :
    ∀ (m : SMessenger) (entries : List (SocketType × Look)), Decidable (m.MeetsIn fd entries)
  | _, [] => .isFalse id
  | m, (x, look) :: rest =>
      have := decidableMeetsIn fd (m.visit x look).2 rest
      inferInstanceAs (Decidable ((x = fd ∧ look.Problem) ∨ (_ = none ∧ _)))

instance decidableMeetsInLoop (fd : SocketType) :
    ∀ (m : SMessenger) (passes : List (List Look)), Decidable (m.MeetsInLoop fd passes)
  | _, [] => .isFalse id
  | m, looks :: more =>
      have := decidableMeetsInLoop fd (m.pass (m.spoll.zip looks)).2 more
      inferInstanceAs (Decidable (m.MeetsIn fd _ ∨ (_ = none ∧ _)))

instance (fd : SocketType) (m : SMessenger) (env : RecvEnv) : Decidable (m.Meets fd env) :=
  inferInstanceAs (Decidable (_ ∧ _))

/-- A connection on which these frames have arrived, the next of them in front. -/
structure Queued (remote : IP) (fd : SocketType) (m : SMessenger) (left : List Frame) : Prop where
  positive : 0 < fd
  queue : ∃ wire buffer eof, m.sock fd = .stream wire buffer eof remote ∧
    framing.encodeAll left <+: buffer

/-- What a part of a call makes of a connection with these frames: it is cut off,
exactly if a problem is met there; or nothing is taken off it; or the next frame
is. -/
inductive Drains (remote : IP) (fd : SocketType) (left : List Frame) (meets : Prop) :
    Option SMsg × SMessenger → Prop
  | cut (m' : SMessenger) (problem : meets) :
      Drains remote fd left meets (some (SMsg.ofError errcodePeerDisconnected 0 0 fd), m')
  | kept (out : Option SMsg) (m' : SMessenger) (fine : ¬ meets)
      (elsewhere : ∀ msg ∈ out, msg.socket ≠ fd) (queued : Queued remote fd m' left) :
      Drains remote fd left meets (out, m')
  | read (f : Frame) (rest : List Frame) (m' : SMessenger) (fine : ¬ meets)
      (next : left = f :: rest) (queued : Queued remote fd m' rest) :
      Drains remote fd left meets (some (f.toSMsg remote fd), m')

variable {remote : IP} {fd x : SocketType} {m m' : SMessenger} {left : List Frame} {look : Look}

theorem Queued.of_sock (queued : Queued remote fd m left) (same : m'.sock fd = m.sock fd) :
    Queued remote fd m' left := ⟨queued.positive, by rw [same]; exact queued.queue⟩

theorem Queued.arrive (queued : Queued remote fd m left) (arrivals : SocketType → Nat) :
    Queued remote fd (m.arrive arrivals) left := by
  obtain ⟨positive, wire, buffer, eof, open_, front⟩ := queued
  refine ⟨positive, wire.drop (arrivals fd), buffer ++ wire.take (arrivals fd), eof, ?_, ?_⟩
  · rw [arrive_sock, open_, Sock.arrive]
  · exact front.trans (List.prefix_append _ _)

/-- What is sent to a socket is on its way, and not in the queue yet. -/
theorem Queued.receive (queued : Queued remote fd m left) (x : SocketType) (bytes : CString)
    (datagrams : List Datagram) (closes : Bool) :
    Queued remote fd (m.setSock x ((m.sock x).receive bytes datagrams closes)) left := by
  by_cases here : x = fd
  · subst here
    obtain ⟨positive, wire, buffer, eof, open_, front⟩ := queued
    refine ⟨positive, wire ++ bytes, buffer, eof || closes, ?_, front⟩
    rw [setSock_self, open_, Sock.receive]
  · exact queued.of_sock (setSock_of_ne m _ (Ne.symm here))

theorem Queued.not_closed (queued : Queued remote fd m left) : (m.sock fd).kind ≠ .closed := by
  obtain ⟨_, wire, buffer, eof, open_, _⟩ := queued
  rw [open_, Sock.kind]
  decide

/-- `nextMsg` takes the next frame off. -/
theorem Queued.nextMsg {f : Frame} {rest : List Frame} (queued : Queued remote fd m (f :: rest))
    (late later : Nat) :
    ∃ s, LibSBus.nextMsg maxDatalen (m.sock fd) late later =
        (.message f.msgtag remote f.port f.data, s) ∧
      Queued remote fd (m.setSock fd s) rest := by
  obtain ⟨positive, wire, buffer, eof, open_, front⟩ := queued
  obtain ⟨behind, rfl⟩ := front
  rw [framing.encodeAll_cons, List.append_assoc] at open_
  have taken : ((Sock.stream wire (f.encode ++ (framing.encodeAll rest ++ behind)) eof
      remote).arrive late).arrive later = .stream ((wire.drop late).drop later)
        (f.encode ++ (framing.encodeAll rest ++ (behind ++ wire.take late ++
          (wire.drop late).take later))) eof remote := by
    simp only [Sock.arrive, List.append_assoc]
  have whole : scan (f.encode ++ (framing.encodeAll rest ++ behind) ++ wire.take late) =
      .frame f f.encode.length := by
    rw [List.append_assoc]
    exact scan_encode f _
  rw [open_, show framing.encode f = f.encode from rfl, nextMsg_stream (f.encode_append_ne_nil _)]
  dsimp only
  rw [if_neg (f.not_short _), whole]
  dsimp only
  rw [taken]
  refine ⟨_, rfl, positive, (wire.drop late).drop later, framing.encodeAll rest ++
    (behind ++ wire.take late ++ (wire.drop late).take later), eof, ?_, List.prefix_append _ _⟩
  rw [setSock_self, Sock.consume, List.drop_left]

/-- What a failing socket other than `fd` does to the connection: nothing, as long as
the kernel does not give its number to another one. -/
theorem Queued.socketErrorHandling (queued : Queued remote fd m left) (elsewhere : x ≠ fd)
    {reopened : Option SocketType} (other : reopened ≠ some fd) :
    Queued remote fd (m.socketErrorHandling x reopened) left := by
  have closed := queued.of_sock (setSock_of_ne m .closed elsewhere.symm)
  unfold SMessenger.socketErrorHandling
  split
  case isTrue multicast =>
    cases reopened with
    | none => exact closed.of_sock rfl
    | some y =>
        have different : fd ≠ y := fun same => other (congrArg some same.symm)
        exact closed.of_sock (setSock_of_ne _ (.dgram [] []) different)
  case isFalse connection => exact closed.of_sock rfl

/-- What a visit of an entry does to a connection with frames left. -/
theorem visit_drains (queued : Queued remote fd m left) (some_left : left ≠ [])
    (x : SocketType) (other : look.reopened ≠ some fd) :
    Drains remote fd left (x = fd ∧ look.Problem) (m.visit x look) := by
  have arrived := queued.arrive look.arrivals
  by_cases here : x = fd
  · subst here
    by_cases problem : look.Problem
    · rw [visit_problem (Int.ne_of_gt queued.positive) problem]
      exact .cut _ ⟨rfl, problem⟩
    have fine : ¬ (x = x ∧ look.Problem) := fun meets => problem meets.2
    by_cases readable : look.has POLLIN
    · obtain ⟨f, rest, rfl⟩ := List.exists_cons_of_ne_nil some_left
      obtain ⟨s, read, queued'⟩ := arrived.nextMsg look.late look.later
      rw [visit_message queued.positive problem readable read]
      exact .read f rest _ fine rfl queued'
    · rw [visit_idle (.inr ⟨problem, readable⟩)]
      exact .kept none _ fine (fun msg none => by cases none) arrived
  have fine : ¬ (x = fd ∧ look.Problem) := fun meets => here meets.1
  have kept : ∀ s, Queued remote fd ((m.arrive look.arrivals).setSock x s) left := fun s =>
    arrived.of_sock (setSock_of_ne _ s (Ne.symm here))
  have elsewhere : ∀ msg : SMsg, msg.socket = x → ∀ out ∈ some msg, out.socket ≠ fd := by
    intro msg from_x out same
    rw [← Option.some.inj same, from_x]
    exact here
  unfold visit
  dsimp only
  split
  case isFalse passed => exact .kept none _ fine (fun msg none => by cases none) arrived
  case isTrue reported =>
    split
    case isTrue problem =>
      exact .kept _ _ fine (elsewhere _ rfl) (arrived.socketErrorHandling here other)
    case isFalse calm =>
      split
      case isFalse silent => exact .kept none _ fine (fun msg none => by cases none) arrived
      case isTrue readable =>
        split
        case h_1 s error =>
          exact .kept _ _ fine (elsewhere _ rfl) ((kept s).socketErrorHandling here other)
        case h_2 s pending => exact .kept none _ fine (fun msg none => by cases none) (kept s)
        case h_3 msgtag ip port msg s message =>
          split
          case isTrue positive => exact .kept _ _ fine (elsewhere _ rfl) (kept s)
          case isFalse negative =>
            exact .kept none _ fine (fun msg none => by cases none) (kept s)

/-- One part of a call, and the next one unless the first gave a message. -/
theorem Drains.andThen {here later : Prop} {first next : Option SMsg × SMessenger}
    (drains : Drains remote fd left here first)
    (more : Queued remote fd first.2 left → Drains remote fd left later next) :
    Drains remote fd left (here ∨ (first.1 = none ∧ later))
      (if first.1 = none then next else first) := by
  cases drains with
  | cut m' problem => exact .cut m' (.inl problem)
  | read f rest m' fine next_ queued =>
      refine .read f rest m' ?_ next_ queued
      simp [fine]
  | kept out m' fine elsewhere queued =>
      cases out with
      | none => simpa [fine] using more queued
      | some msg =>
          refine .kept (some msg) m' ?_ elsewhere queued
          simp [fine]

theorem pass_drains (queued : Queued remote fd m left) (some_left : left ≠ [])
    (entries : List (SocketType × Look))
    (others : ∀ entry ∈ entries, entry.2.reopened ≠ some fd) :
    Drains remote fd left (m.MeetsIn fd entries) (m.pass entries) := by
  induction entries generalizing m with
  | nil => exact .kept none m id (fun msg none => by cases none) queued
  | cons entry rest ih =>
      obtain ⟨x, look⟩ := entry
      obtain ⟨here, later⟩ := List.forall_mem_cons.mp others
      rw [pass_cons]
      exact (visit_drains queued some_left x here).andThen fun queued' => ih queued' later

theorem polls_drains (queued : Queued remote fd m left) (some_left : left ≠ [])
    (passes : List (List Look))
    (others : ∀ looks ∈ passes, ∀ look ∈ looks, look.reopened ≠ some fd) :
    Drains remote fd left (m.MeetsInLoop fd passes) (m.polls passes) := by
  induction passes generalizing m with
  | nil => exact .kept none m id (fun msg none => by cases none) queued
  | cons looks more ih =>
      obtain ⟨here, later⟩ := List.forall_mem_cons.mp others
      have entries : ∀ entry ∈ m.spoll.zip looks, entry.2.reopened ≠ some fd :=
        fun entry member => here entry.2 (List.of_mem_zip member).2
      rw [polls_cons]
      exact (pass_drains queued some_left _ entries).andThen fun queued' => ih queued' later

/-- What a call of `recv` does to a connection with frames left. -/
theorem recv_drains (queued : Queued remote fd m left) (some_left : left ≠ []) {env : RecvEnv}
    (accepts : ∀ connection ∈ env.listen.accepted, connection.1 ≠ fd)
    (others : ∀ looks ∈ env.passes, ∀ look ∈ looks, look.reopened ≠ some fd) :
    Drains remote fd left (m.Meets fd env) (m.recv env) := by
  have listened : Queued remote fd (m.listenConn env.listen).2 left := by
    cases listen : env.listen with
    | idle => exact queued
    | broken reopened => cases reopened <;> exact queued.of_sock rfl
    | incoming accepted =>
        cases accepted with
        | none => exact queued
        | some connection =>
            have different : connection.1 ≠ fd := accepts connection (by rw [listen]; rfl)
            exact queued.of_sock (setSock_of_ne _ _ different.symm)
  have eq : m.recv env = if (m.listenConn env.listen).1 < 0 then
      (none, (m.listenConn env.listen).2) else (m.listenConn env.listen).2.polls env.passes := rfl
  rw [eq, Meets]
  by_cases failed : (m.listenConn env.listen).1 < 0
  · rw [if_pos failed]
    have fine : ¬ (0 ≤ (m.listenConn env.listen).1 ∧
        (m.listenConn env.listen).2.MeetsInLoop fd env.passes) :=
      fun meets => absurd failed (Int.not_lt.mpr meets.1)
    exact .kept none _ fine (fun msg none => by cases none) listened
  · rw [if_neg failed, and_iff_right (Int.not_lt.mp failed)]
    exact polls_drains listened some_left env.passes others

end SMessenger

/-- A messenger with all that its calls of `recv` have returned. -/
structure Closing where
  messenger : SMessenger
  returned : List SMsg

namespace Closing

open SMessenger

/-- What was returned from one socket, reports included. -/
def fromSocket (fd : SocketType) (returned : List SMsg) : List SMsg :=
  returned.filter fun msg => msg.socket == fd

/-- The kernel gives no number that is open to another socket. -/
def Possible (fd : SocketType) (m : SMessenger) (call : Call) : Prop :=
  m.Possible call ∧ ∀ env, call = .recv env → (m.sock fd).kind ≠ .closed →
    ∀ looks ∈ env.passes, ∀ look ∈ looks, look.reopened ≠ some fd

/-- What a call returns to the receiving thread. -/
def output (m : SMessenger) : Call → List SMsg
  | .recv env => (m.recv env).1.toList
  | _ => []

/-- One call, or something sent to one of the sockets. -/
inductive Step (fd : SocketType) (s : Closing) (call : Call) : Closing → Prop
  | made (possible : Possible fd s.messenger call) :
      Step fd s call
        { messenger := s.messenger.after call
          returned := s.returned ++ output s.messenger call }

/-- Before each report of `fd` all of the expected messages were returned, first
among those from `fd`. -/
def Reports (fd : SocketType) (expected returned : List SMsg) : Prop :=
  ∀ before report behind, returned = before ++ report :: behind → report.error = true →
    report.socket = fd → expected <+: fromSocket fd before

/-- All of the expected messages are returned before the socket is reported or
closed. -/
structure ReturnsFirst (fd : SocketType) (expected : List SMsg) (s : Closing) : Prop where
  reports : Reports fd expected s.returned
  closed : (s.messenger.sock fd).kind = .closed → expected <+: fromSocket fd s.returned

/-- The call does not come to `fd` with a problem before all of the messages are
returned. -/
def Spares (fd : SocketType) (count : Nat) (s : Closing) : Call → Prop
  | .recv env => (fromSocket fd s.returned).length < count → ¬ s.messenger.Meets fd env
  | _ => True

/-- One message of the peer, which has closed. -/
def lastWords : Frame :=
  { msgtag := 7, port := 9, data := [65], tag_fits := by decide, data_fits := by decide }

def lastWordsQueued : SMessenger :=
  { servsock := 3, mcsock := 4, ip := 1, port := 1, spoll := [4, 5]
    sock := fun fd =>
      if fd = 4 then .dgram [] []
      else if fd = 5 then .stream [] (framing.encodeAll [lastWords]) true 2
      else .closed }

theorem queued_lastWords : Queued 2 5 lastWordsQueued [lastWords] :=
  ⟨by decide, [], _, true, rfl, List.prefix_rfl⟩

/-- A call for which `poll` reports these events on the connection. -/
def callWith (revents : BitVec 16) : RecvEnv :=
  { listen := .idle, passes := [[plainLook 0, plainLook revents]] }

theorem possible_callWith (m : SMessenger) (revents : BitVec 16) :
    Possible 5 m (.recv (callWith revents)) := by
  refine ⟨fun connection (given : connection ∈ none) => (by cases given), ?_⟩
  rintro env same _ looks member look member'
  obtain rfl := SMessenger.Call.recv.inj same
  obtain rfl := List.mem_singleton.mp member
  rcases List.mem_cons.mp member' with rfl | last
  · simp [plainLook]
  · rw [List.mem_singleton.mp last]
    simp [plainLook]

/-- `POLLIN` comes with `POLLHUP`, and the message is lost. -/
theorem last_words_lost :
    ¬ ∀ remote fd m frames calls, Queued remote fd m frames →
      Always (Step fd) (ReturnsFirst fd (frames.map (Frame.toSMsg remote fd))) ⟨m, []⟩ calls := by
  intro always
  have first := always 2 5 _ _ [.recv (callWith (POLLIN ||| POLLHUP))] queued_lastWords _
    List.prefix_rfl _ (.cons ⟨possible_callWith _ _⟩ (.nil _))
  have reported : (lastWordsQueued.recv (callWith (POLLIN ||| POLLHUP))).1 =
      some (SMsg.ofError errcodePeerDisconnected 0 0 5) := by decide
  have early := first.reports [] (SMsg.ofError errcodePeerDisconnected 0 0 5) []
    (by rw [output, reported]; rfl) rfl rfl
  exact absurd early.length_le (by decide)

variable {fd : SocketType} {remote : IP} {expected returned more : List SMsg}
  {s t : Closing} {call : Call} {frames : List Frame}

theorem fromSocket_append (fd : SocketType) (returned more : List SMsg) :
    fromSocket fd (returned ++ more) = fromSocket fd returned ++ fromSocket fd more :=
  List.filter_append ..

/-- What holds of the reports so far and of those that are added. -/
theorem Reports.append (reports : Reports fd expected returned)
    (added : ∀ before report behind, more = before ++ report :: behind → report.error = true →
      report.socket = fd → expected <+: fromSocket fd (returned ++ before)) :
    Reports fd expected (returned ++ more) := by
  intro before report behind split error from_fd
  rcases List.append_eq_append_iff.mp split with ⟨late, rfl, rest⟩ | ⟨early, rfl, rest⟩
  · exact added late report behind rest error from_fd
  · cases early with
    | nil =>
        have here := added [] report behind rest.symm error from_fd
        rw [List.append_nil, List.append_nil] at here
        exact here
    | cons first early =>
        obtain ⟨rfl, rfl⟩ := List.cons.inj rest
        exact reports before report early rfl error from_fd

/-- Once they are all returned, nothing can go wrong. -/
theorem ReturnsFirst.later (first : ReturnsFirst fd expected s)
    (all : expected <+: fromSocket fd s.returned) (m : SMessenger) (more : List SMsg) :
    ReturnsFirst fd expected { messenger := m, returned := s.returned ++ more } ∧
      expected <+: fromSocket fd (s.returned ++ more) := by
  have longer : ∀ behind, expected <+: fromSocket fd (s.returned ++ behind) := by
    intro behind
    rw [fromSocket_append]
    exact all.trans (List.prefix_append _ _)
  exact ⟨⟨first.reports.append fun before _ _ _ _ _ => longer before, fun _ => longer more⟩,
    longer more⟩

/-- The invariant: all of the messages are returned, or the frames of the others are
left in the queue. -/
structure Draining (remote : IP) (fd : SocketType) (frames : List Frame) (s : Closing) :
    Prop where
  first : ReturnsFirst fd (frames.map (Frame.toSMsg remote fd)) s
  progress : frames.map (Frame.toSMsg remote fd) <+: fromSocket fd s.returned ∨
    ∃ taken left, frames = taken ++ left ∧ left ≠ [] ∧
      fromSocket fd s.returned = taken.map (Frame.toSMsg remote fd) ∧
      Queued remote fd s.messenger left

/-- There are fewer messages returned than expected while frames are left. -/
theorem length_taken {taken left : List Frame} (some_left : left ≠ [])
    (log : fromSocket fd returned = taken.map (Frame.toSMsg remote fd)) :
    (fromSocket fd returned).length < (taken ++ left).length := by
  have positive := List.length_pos_of_ne_nil some_left
  rw [log, List.length_map, List.length_append]
  omega

/-- A call that takes nothing off the connection. -/
theorem Draining.quiet {taken left : List Frame} (draining : Draining remote fd (taken ++ left) s)
    (some_left : left ≠ []) (log : fromSocket fd s.returned = taken.map (Frame.toSMsg remote fd))
    {m : SMessenger} (queued : Queued remote fd m left)
    (elsewhere : ∀ msg ∈ more, msg.socket ≠ fd) :
    Draining remote fd (taken ++ left) { messenger := m, returned := s.returned ++ more } := by
  have nothing : fromSocket fd more = [] := by
    simpa [fromSocket] using elsewhere
  have log' : fromSocket fd (s.returned ++ more) = taken.map (Frame.toSMsg remote fd) := by
    rw [fromSocket_append, nothing, List.append_nil, log]
  refine ⟨⟨draining.first.reports.append ?_, fun closed => absurd closed queued.not_closed⟩,
    .inr ⟨taken, left, rfl, some_left, log', queued⟩⟩
  rintro before report behind rfl _ from_fd
  exact absurd from_fd (elsewhere report (List.mem_append_right _ List.mem_cons_self))

/-- A call that returns the message of the next frame. -/
theorem Draining.read {taken rest : List Frame} {f : Frame}
    (draining : Draining remote fd (taken ++ f :: rest) s)
    (log : fromSocket fd s.returned = taken.map (Frame.toSMsg remote fd))
    {m : SMessenger} (queued : Queued remote fd m rest) :
    Draining remote fd (taken ++ f :: rest)
      { messenger := m, returned := s.returned ++ [f.toSMsg remote fd] } := by
  have log' : fromSocket fd (s.returned ++ [f.toSMsg remote fd]) =
      (taken ++ [f]).map (Frame.toSMsg remote fd) := by
    rw [fromSocket_append, log, List.map_append]
    simp [fromSocket, Frame.toSMsg]
  refine ⟨⟨draining.first.reports.append ?_, fun closed => absurd closed queued.not_closed⟩, ?_⟩
  · intro before report behind split error _
    have member : report ∈ [f.toSMsg remote fd] := by
      rw [split]
      exact List.mem_append_right _ List.mem_cons_self
    rw [List.mem_singleton.mp member] at error
    cases error
  · cases rest with
    | nil =>
        apply Or.inl
        rw [log']
    | cons g rest =>
        exact .inr ⟨taken ++ [f], g :: rest, by simp, List.cons_ne_nil g rest, log', queued⟩

/-- A call of `recv` while frames are left. -/
theorem Draining.recv {taken left : List Frame} {env : RecvEnv}
    (draining : Draining remote fd (taken ++ left) s) (some_left : left ≠ [])
    (log : fromSocket fd s.returned = taken.map (Frame.toSMsg remote fd))
    (queued : Queued remote fd s.messenger left) (possible : Possible fd s.messenger (.recv env)) :
    (ReturnsFirst fd ((taken ++ left).map (Frame.toSMsg remote fd))
        { messenger := (s.messenger.recv env).2
          returned := s.returned ++ (s.messenger.recv env).1.toList } ↔
      ¬ s.messenger.Meets fd env) ∧
    (¬ s.messenger.Meets fd env → Draining remote fd (taken ++ left)
      { messenger := (s.messenger.recv env).2
        returned := s.returned ++ (s.messenger.recv env).1.toList }) := by
  have accepts : ∀ connection ∈ env.listen.accepted, connection.1 ≠ fd := by
    rintro connection accepted rfl
    exact queued.not_closed (possible.1 connection accepted).2.1
  have drains := recv_drains queued some_left accepts (possible.2 env rfl queued.not_closed)
  generalize s.messenger.recv env = result at drains ⊢
  cases drains with
  | cut m' problem =>
      refine ⟨iff_of_false (fun first => ?_) (not_not.mpr problem),
        fun fine => absurd problem fine⟩
      have early := first.reports s.returned _ [] rfl rfl rfl
      have long := early.length_le
      have short := length_taken some_left log
      rw [List.length_map] at long
      omega
  | kept out m' fine elsewhere queued' =>
      have draining' := draining.quiet some_left log queued'
        fun msg (member : msg ∈ out.toList) => elsewhere msg (Option.mem_toList.mp member)
      exact ⟨iff_of_true draining'.first fine, fun _ => draining'⟩
  | read f rest m' fine next queued' =>
      subst next
      have draining' := draining.read log queued'
      exact ⟨iff_of_true draining'.first fine, fun _ => draining'⟩

/-- A connect takes no descriptor that is open. -/
theorem queued_connect {m : SMessenger} {client : Option (SocketType × Sock)} {polled : Bool}
    {left : List Frame} (queued : Queued remote fd m left)
    (possible : Possible fd m (.connect client polled)) :
    Queued remote fd (m.after (.connect client polled)) left := by
  cases client with
  | none => exact queued
  | some connection =>
      have different : connection.1 ≠ fd := by
        rintro rfl
        exact queued.not_closed (possible.1 connection rfl).2.1
      have kept := queued.of_sock (setSock_of_ne m connection.2 different.symm)
      cases polled with
      | false => exact kept
      | true => exact kept.of_sock rfl

/-- One call. -/
theorem Draining.after (draining : Draining remote fd frames s)
    (possible : Possible fd s.messenger call) :
    (ReturnsFirst fd (frames.map (Frame.toSMsg remote fd))
        { messenger := s.messenger.after call
          returned := s.returned ++ output s.messenger call } ↔
      Spares fd frames.length s call) ∧
    (Spares fd frames.length s call → Draining remote fd frames
      { messenger := s.messenger.after call
        returned := s.returned ++ output s.messenger call }) := by
  rcases draining.progress with all | ⟨taken, left, rfl, some_left, log, queued⟩
  · obtain ⟨first, all'⟩ := draining.first.later all (s.messenger.after call)
      (output s.messenger call)
    refine ⟨iff_of_true first ?_, fun _ => ⟨first, .inl all'⟩⟩
    have long := all.length_le
    rw [List.length_map] at long
    cases call with
    | recv env => exact fun short => absurd short (Nat.not_lt.mpr long)
    | connect client polled => trivial
    | others x bytes datagrams closes => trivial
  have nothing : ∀ msg ∈ ([] : List SMsg), msg.socket ≠ fd := fun msg none => by cases none
  cases call with
  | recv env =>
      have short := length_taken some_left log
      have spares : Spares fd (taken ++ left).length s (.recv env) ↔
          ¬ s.messenger.Meets fd env :=
        ⟨fun spares => spares short, fun fine _ => fine⟩
      rw [spares]
      exact draining.recv some_left log queued possible
  | connect client polled =>
      have draining' := draining.quiet some_left log (queued_connect queued possible) nothing
      exact ⟨iff_of_true draining'.first trivial, fun _ => draining'⟩
  | others x bytes datagrams closes =>
      have queued' : Queued remote fd (s.messenger.after (.others x bytes datagrams closes))
          left := queued.receive x bytes datagrams closes
      have draining' := draining.quiet some_left log queued' nothing
      exact ⟨iff_of_true draining'.first trivial, fun _ => draining'⟩

/-- In every run of calls, all of the frames that are in the queue of a connection at
the start are returned before it is reported and closed, if and only if no call
of `recv` comes to it with a problem before that. -/
theorem returns_first_iff {m : SMessenger} (queued : Queued remote fd m frames)
    (calls : List Call) :
    Always (Step fd) (ReturnsFirst fd (frames.map (Frame.toSMsg remote fd))) ⟨m, []⟩ calls ↔
      EachStep (Step fd)
        (fun s call => Possible fd s.messenger call → Spares fd frames.length s call)
        ⟨m, []⟩ calls := by
  have start : Draining remote fd frames ⟨m, []⟩ := by
    refine ⟨⟨?_, fun closed => absurd closed queued.not_closed⟩, ?_⟩
    · intro before report behind split
      simp at split
    · cases frames with
      | nil => exact .inl (List.nil_prefix)
      | cons f rest => exact .inr ⟨[], f :: rest, rfl, List.cons_ne_nil f rest, rfl, queued⟩
  rw [always_iff start.first]
  refine eachStep_iff (I := Draining remote fd frames) start ?_ ?_
  · rintro s call _ t draining spares ⟨possible⟩
    exact (draining.after possible).2 (spares possible)
  · intro s call _ draining
    constructor
    · intro first possible
      exact (draining.after possible).1.mp (first _ ⟨possible⟩)
    · rintro spares t ⟨possible⟩
      exact (draining.after possible).1.mpr (spares possible)

/-- Without `POLLHUP` the message is read, and the next call reports the connection. -/
theorem returns_first_iff_read :
    Always (Step 5) (ReturnsFirst 5 [lastWords.toSMsg 2 5]) ⟨lastWordsQueued, []⟩
      [.recv (callWith POLLIN), .recv (callWith POLLIN)] := by
  refine (returns_first_iff queued_lastWords _).mpr
    ⟨fun _ _ => by decide, fun t ⟨possible⟩ => ⟨fun _ short => ?_, fun _ _ => trivial⟩⟩
  exact absurd short (by decide)

end Closing

end LibSBus
