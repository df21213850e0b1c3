import LibSBus.SMessenger.Losses
import Mathlib.Algebra.Order.BigOperators.Group.List

/-!
That `recv` comes to an end with what it was sent. A call returns at the first socket that
gives a message, in the order of the table, so a socket is served only when those before
it have nothing. But a call in which `poll` reports all sockets that can be read returns
something as long as a message is complete in one of them, and what it returns is one
message less. A frame that is not complete holds up nobody.

This is said of messengers to which everything that was sent has arrived.
-/

namespace LibSBus

open Lib

namespace Sock

/-- Nothing is on its way. -/
def Arrived : Sock → Prop
  | .stream wire _ _ _ => wire = []
  | .dgram wire _ => wire = []
  | .closed => True

/-- `poll` finds something to read. -/
def Readable : Sock → Prop
  | .stream _ buffer eof _ => buffer ≠ [] ∨ eof
  | .dgram _ queue => queue ≠ []
  | .closed => False

instance : DecidablePred Arrived := fun s =>
  match s with
  | .stream wire _ _ _ => inferInstanceAs (Decidable (wire = []))
  | .dgram wire _ => inferInstanceAs (Decidable (wire = []))
  | .closed => .isTrue trivial

instance : DecidablePred Readable := fun s =>
  match s with
  | .stream _ buffer eof _ => inferInstanceAs (Decidable (buffer ≠ [] ∨ eof))
  | .dgram _ queue => inferInstanceAs (Decidable (queue ≠ []))
  | .closed => .isFalse id

/-- No message is complete. -/
def Spent : Sock → Prop
  | .stream _ buffer _ _ => framing.parse buffer = []
  | .dgram _ queue => queue = []
  | .closed => True

/-- How often a socket can make `recv` return: its messages, and the end of a connection. -/
def load : Sock → Nat
  | .stream _ buffer _ _ => (framing.parse buffer).length + 1
  | .dgram _ queue => queue.length
  | .closed => 0

theorem Arrived.arrive {s : Sock} (arrived : s.Arrived) (n : Nat) : s.arrive n = s := by
  cases s with
  | stream wire buffer eof remote =>
      obtain rfl : wire = [] := arrived
      simp [Sock.arrive]
  | dgram wire queue =>
      obtain rfl : wire = [] := arrived
      simp [Sock.arrive]
  | closed => rfl

end Sock

theorem parse_frame (f : Frame) (rest : CString) :
    framing.parse (f.encode ++ rest) = f :: framing.parse rest :=
  framing.parse_encode_append framing_exact f rest

/-- `nextMsg` on a connection whose bytes have all arrived: without a complete frame it
takes nothing, and otherwise it takes the first one. -/
theorem nextMsg_arrived (buffer : CString) (eof : Bool) (remote : IP) (late later : Nat) :
    (framing.parse buffer = [] ∧
      ∃ next, nextMsg maxDatalen (.stream [] buffer eof remote) late later =
          (next, .stream [] buffer eof remote) ∧ (next = .pending ∨ next = .error)) ∨
      ∃ f rest, buffer = Frame.encode f ++ rest ∧
        nextMsg maxDatalen (.stream [] buffer eof remote) late later =
          (.message f.msgtag remote f.port f.data, .stream [] rest eof remote) := by
  have same : ∀ n, (Sock.stream [] buffer eof remote).arrive n = .stream [] buffer eof remote :=
    Sock.Arrived.arrive (s := .stream [] buffer eof remote) rfl
  by_cases empty : buffer = []
  · subst empty
    refine .inl ⟨rfl, ?_⟩
    rw [nextMsg_stream_nil]
    split
    case isTrue ended => exact ⟨.error, rfl, .inr rfl⟩
    case isFalse open_ => exact ⟨.pending, rfl, .inl rfl⟩
  · rw [nextMsg_stream empty]
    dsimp only
    rw [same, same, List.take_nil, List.append_nil]
    have nothing : (∀ f size, scan buffer ≠ .frame f size) → framing.parse buffer = [] :=
      framing.parse_eq_nil
    split
    case isTrue short =>
      have incomplete : scan buffer = .incomplete := if_pos short
      refine .inl ⟨nothing ?_, .pending, rfl, .inl rfl⟩
      intro f size found
      rw [incomplete] at found
      cases found
    case isFalse long =>
      cases found : scan buffer with
      | incomplete =>
          exact .inl ⟨nothing (by simp [found]), .pending, rfl, .inl rfl⟩
      | invalid =>
          exact .inl ⟨nothing (by simp [found]), .error, rfl, .inr rfl⟩
      | frame f size =>
          obtain ⟨rest, bytes⟩ : f.encode <+: buffer := framing_exact _ f size found
          rw [← bytes, scan_encode] at found
          obtain ⟨_, rfl⟩ := Scan.frame.inj found
          have left : (Sock.stream [] buffer eof remote).consume f.encode.length =
              .stream [] rest eof remote := by
            rw [Sock.consume, ← bytes, List.drop_left]
          exact .inr ⟨f, rest, bytes.symm, congrArg (Prod.mk _) left⟩

def Listen.Idle : Listen → Prop
  | .idle => True
  | _ => False

instance : DecidablePred Listen.Idle := fun listen =>
  match listen with
  | .idle => .isTrue trivial
  | .broken _ => .isFalse id
  | .incoming _ => .isFalse id

namespace SMessenger

variable {m m' : SMessenger} {fd x : SocketType} {look : Look} {result : Option SMsg × SMessenger}

/-- All connections are registered, the multicast socket is open, what was sent has
arrived, and the datagrams among it are well-formed. -/
structure Attended (m : SMessenger) : Prop where
  sound : m.Sound
  positive : ∀ fd ∈ m.spoll, 0 < fd
  arrived : ∀ fd, (m.sock fd).Arrived
  good : ∀ d ∈ m.queued, d.WellFormed

/-- `poll` returns in time once, with no problem, and reports every socket that can be
read. Nobody connects. -/
def Faithful (m : SMessenger) (env : RecvEnv) : Prop :=
  env.listen.Idle ∧ (∀ looks ∈ env.passes, ∀ look ∈ looks, ¬ look.Problem) ∧
    match env.passes with
    | [] => False
    | looks :: _ => looks.length = m.spoll.length ∧
        ∀ entry ∈ m.spoll.zip looks, (m.sock entry.1).Readable → entry.2.has POLLIN

instance (m : SMessenger) (env : RecvEnv) : Decidable (m.Faithful env) := by
  unfold Faithful
  cases env.passes <;> infer_instance

/-- No message is complete in any socket. -/
def Drained (m : SMessenger) : Prop := ∀ fd ∈ m.spoll, (m.sock fd).Spent

/-- How often `recv` can return. -/
def load (m : SMessenger) : Nat := (m.spoll.map fun fd => (m.sock fd).load).sum

/-- What a call returns: a frame of a connection, a datagram, or the end of a connection
without a frame. -/
inductive Serves (m : SMessenger) : Option SMsg × SMessenger → Prop
  | frame {fd : SocketType} {f : Frame} {rest : CString} {eof : Bool} {remote : IP}
      (member : fd ∈ m.spoll) (open_ : m.sock fd = .stream [] (f.encode ++ rest) eof remote) :
      Serves m (some (f.toSMsg remote fd), m.setSock fd (.stream [] rest eof remote))
  | datagram {d : Datagram} {rest : List Datagram}
      (open_ : m.sock m.mcsock = .dgram [] (d :: rest)) :
      Serves m (some (d.message m.mcsock), m.setSock m.mcsock (.dgram [] rest))
  | ended {fd : SocketType} {buffer : CString} {eof : Bool} {remote : IP}
      (member : fd ∈ m.spoll) (open_ : m.sock fd = .stream [] buffer eof remote)
      (finished : framing.parse buffer = []) :
      Serves m (some (SMsg.ofError errcodePeerDisconnected 0 0 fd),
        { m.setSock fd .closed with spoll := m.spoll.erase fd })

theorem arrive_arrived (arrived : ∀ fd, (m.sock fd).Arrived) (arrivals : SocketType → Nat) :
    m.arrive arrivals = m := by
  have same : (fun fd => (m.sock fd).arrive (arrivals fd)) = m.sock :=
    funext fun fd => (arrived fd).arrive (arrivals fd)
  rw [SMessenger.arrive, same]

theorem setSock_same (m : SMessenger) (fd : SocketType) : m.setSock fd (m.sock fd) = m := by
  rw [setSock, Function.update_eq_self]

/-- A registered socket is the multicast socket or a connection. -/
theorem Attended.kinds (attended : m.Attended) (member : fd ∈ m.spoll) :
    (fd = m.mcsock ∧ ∃ queue, m.sock fd = .dgram [] queue) ∨
      (fd ≠ m.mcsock ∧ ∃ buffer eof remote, m.sock fd = .stream [] buffer eof remote) := by
  have arrived := attended.arrived fd
  by_cases multicast : fd = m.mcsock
  · have open_ := attended.sound.multicast
    rw [← multicast] at open_
    cases eq : m.sock fd with
    | dgram wire queue =>
        rw [eq] at arrived
        obtain rfl : wire = [] := arrived
        exact .inl ⟨multicast, queue, rfl⟩
    | stream wire buffer eof remote =>
        rw [eq] at open_
        cases open_
    | closed =>
        rw [eq] at open_
        cases open_
  · have open_ := ((attended.sound.exact fd).mp member).resolve_left multicast
    cases eq : m.sock fd with
    | stream wire buffer eof remote =>
        rw [eq] at arrived
        obtain rfl : wire = [] := arrived
        exact .inr ⟨multicast, buffer, eof, remote, rfl⟩
    | dgram wire queue =>
        rw [eq] at open_
        cases open_
    | closed =>
        rw [eq] at open_
        cases open_

/-- A part of a call finds nothing in the sockets `spent` speaks of and changes nothing,
or returns something. -/
def Attends (m : SMessenger) (spent : Prop) (result : Option SMsg × SMessenger) : Prop :=
  (result = (none, m) ∧ spent) ∨ (result.1 ≠ none ∧ Serves m result)

theorem Serves.attends {spent : Prop} (serves : Serves m result) : Attends m spent result :=
  .inr ⟨by cases serves <;> simp, serves⟩

theorem Attended.visit (attended : m.Attended) (member : fd ∈ m.spoll) (fine : ¬ look.Problem) :
    Attends m (look.has POLLIN → (m.sock fd).Spent) (m.visit fd look) := by
  have used := attended.positive fd member
  have arrived := arrive_arrived attended.arrived look.arrivals
  by_cases readable : look.has POLLIN
  swap
  · rw [visit_idle (.inr ⟨fine, readable⟩), arrived]
    exact .inl ⟨rfl, fun h => absurd h readable⟩
  rcases attended.kinds member with ⟨rfl, queue, open_⟩ | ⟨other, buffer, eof, remote, open_⟩
  · cases queue with
    | nil =>
        have read : nextMsg maxDatalen ((m.arrive look.arrivals).sock m.mcsock) look.late
            look.later = (.pending, .dgram [] []) := by
          rw [arrived, open_]
          rfl
        rw [visit_pending used fine readable read, arrived, ← open_, setSock_same]
        exact .inl ⟨rfl, fun _ => by rw [open_]; rfl⟩
    | cons d rest =>
        have good := attended.good d (by rw [queued_eq open_]; exact List.mem_cons_self)
        have read : nextMsg maxDatalen (.dgram [] (d :: rest)) look.late look.later = _ :=
          nextMsg_wellFormed good m.mcsock
        rw [← open_] at read
        rw [visit_message used fine readable (by rw [arrived]; exact read), arrived]
        exact (Serves.datagram open_).attends
  · rcases nextMsg_arrived buffer eof remote look.late look.later with
      ⟨finished, next, read, rfl | rfl⟩ | ⟨f, rest, bytes, read⟩
    · rw [← open_] at read
      rw [visit_pending used fine readable (by rwa [arrived]), arrived, setSock_same]
      exact .inl ⟨rfl, fun _ => by rw [open_]; exact finished⟩
    · rw [← open_] at read
      rw [visit_error used fine readable (by rwa [arrived]), arrived, setSock_same,
        socketErrorHandling, if_neg other]
      exact (Serves.ended member open_ finished).attends
    · rw [← open_] at read
      rw [bytes] at open_
      rw [visit_message used fine readable (by rw [arrived]; exact read), arrived]
      exact (Serves.frame member open_).attends

/-- One part of a call, and the next one unless the first returned something. -/
theorem Attends.andThen {here later : Prop} {first next : Option SMsg × SMessenger}
    (attends : Attends m here first) (more : first.2 = m → Attends m later next) :
    Attends m (here ∧ later) (if first.1 = none then next else first) := by
  rcases attends with ⟨rfl, spent⟩ | ⟨given, serves⟩
  · rw [if_pos rfl]
    rcases more rfl with ⟨rfl, spent'⟩ | ⟨given, serves⟩
    · exact .inl ⟨rfl, spent, spent'⟩
    · exact .inr ⟨given, serves⟩
  · rw [if_neg given]
    exact .inr ⟨given, serves⟩

theorem Attended.pass (attended : m.Attended) (entries : List (SocketType × Look))
    (members : ∀ entry ∈ entries, entry.1 ∈ m.spoll ∧ ¬ entry.2.Problem) :
    Attends m (∀ entry ∈ entries, entry.2.has POLLIN → (m.sock entry.1).Spent)
      (m.pass entries) := by
  induction entries with
  | nil => exact .inl ⟨rfl, fun entry mem => by cases mem⟩
  | cons entry rest ih =>
      obtain ⟨fd, look⟩ := entry
      obtain ⟨⟨member, fine⟩, later⟩ := List.forall_mem_cons.mp members
      rw [pass_cons, List.forall_mem_cons]
      exact (attended.visit member fine).andThen fun same => by rw [same]; exact ih later

theorem Attended.polls (attended : m.Attended) (passes : List (List Look))
    (fine : ∀ looks ∈ passes, ∀ look ∈ looks, ¬ look.Problem) :
    Attends m (∀ looks ∈ passes.head?, ∀ entry ∈ m.spoll.zip looks,
      entry.2.has POLLIN → (m.sock entry.1).Spent) (m.polls passes) := by
  induction passes with
  | nil => exact .inl ⟨rfl, fun looks mem => by cases mem⟩
  | cons looks more ih =>
      obtain ⟨here, later⟩ := List.forall_mem_cons.mp fine
      have first := attended.pass (m.spoll.zip looks) fun entry mem =>
        ⟨(List.of_mem_zip mem).1, here _ (List.of_mem_zip mem).2⟩
      rw [polls_cons]
      have both : Attends m _ (if (m.pass (m.spoll.zip looks)).1 = none then
          (m.pass (m.spoll.zip looks)).2.polls more else m.pass (m.spoll.zip looks)) :=
        first.andThen fun same => by rw [same]; exact ih later
      rcases both with ⟨nothing, spent, _⟩ | serves
      · refine .inl ⟨nothing, fun _ mem => ?_⟩
        obtain rfl := Option.mem_some_iff.mp mem
        exact spent
      · exact .inr serves

/-- A socket with a message is one that can be read. -/
theorem spent_of_not_readable {s : Sock} (silent : ¬ s.Readable) : s.Spent := by
  cases s with
  | stream wire buffer eof remote =>
      have empty : buffer = [] := not_not.mp fun some_ => silent (.inl some_)
      subst empty
      rfl
  | dgram wire queue => exact not_not.mp silent
  | closed => trivial

/-- A faithful call returns something, or there is no message in any socket. -/
theorem Attended.recv {env : RecvEnv} (attended : m.Attended) (faithful : m.Faithful env) :
    Attends m m.Drained (m.recv env) := by
  obtain ⟨idle, fine, first⟩ := faithful
  obtain ⟨listen, passes⟩ := env
  cases listen with
  | broken reopened => exact idle.elim
  | incoming accepted => exact idle.elim
  | idle =>
      cases passes with
      | nil => exact first.elim
      | cons looks more =>
          obtain ⟨all, reported⟩ := first
          rcases attended.polls (looks :: more) fine with ⟨nothing, spent⟩ | serves
          · refine .inl ⟨nothing, fun fd member => ?_⟩
            obtain ⟨look, mem⟩ : ∃ look, (fd, look) ∈ m.spoll.zip looks := by
              obtain ⟨i, bound, rfl⟩ := List.mem_iff_getElem.mp member
              have bound' : i < looks.length := all ▸ bound
              exact ⟨looks[i], List.mem_iff_getElem.mpr ⟨i, by simp [bound, bound'], by simp⟩⟩
            by_cases readable : (m.sock fd).Readable
            · exact spent looks rfl _ mem (reported _ mem readable)
            · exact spent_of_not_readable readable
          · exact .inr serves

/-- The sockets besides one. -/
theorem Attended.others (attended : m.Attended) (s : Sock) :
    ((m.spoll.erase fd).map fun x => ((m.setSock fd s).sock x).load) =
      (m.spoll.erase fd).map fun x => (m.sock x).load := by
  apply List.map_congr_left
  intro x mem
  rw [setSock_of_ne m s (attended.sound.distinct.mem_erase_iff.mp mem).1]

theorem Attended.load_setSock (attended : m.Attended) (member : fd ∈ m.spoll) (s : Sock) :
    (m.setSock fd s).load =
      s.load + ((m.spoll.erase fd).map fun x => (m.sock x).load).sum := by
  have perm : (m.setSock fd s).spoll.Perm (fd :: m.spoll.erase fd) :=
    List.perm_cons_erase member
  rw [load, (perm.map _).sum_eq, List.map_cons, List.sum_cons, setSock_self, attended.others]

theorem Attended.load_eq (attended : m.Attended) (member : fd ∈ m.spoll) :
    m.load = (m.sock fd).load + ((m.spoll.erase fd).map fun x => (m.sock x).load).sum := by
  have same := attended.load_setSock member (m.sock fd)
  rwa [setSock_same] at same

/-- What is returned need not be returned again. -/
theorem Attended.load_lt (attended : m.Attended) (serves : Serves m result) :
    result.2.load < m.load := by
  cases serves with
  | frame member open_ =>
      rw [attended.load_setSock member, attended.load_eq member, open_, Sock.load, Sock.load,
        parse_frame, List.length_cons]
      exact Nat.add_lt_add_right (Nat.lt_succ_self _) _
  | datagram open_ =>
      have member := (attended.sound.exact m.mcsock).mpr (.inl rfl)
      rw [attended.load_setSock member, attended.load_eq member, open_]
      exact Nat.add_lt_add_right (Nat.lt_succ_self _) _
  | ended member open_ finished =>
      rw [attended.load_eq member, open_, SMessenger.load]
      refine lt_of_eq_of_lt (congrArg List.sum (attended.others .closed)) ?_
      exact Nat.lt_add_of_pos_left (Nat.succ_pos _)

theorem Attended.setSock (attended : m.Attended) {s : Sock} (kind : s.kind = (m.sock fd).kind)
    (arrived : s.Arrived) (queued : ∀ d ∈ (m.setSock fd s).queued, d ∈ m.queued) :
    (m.setSock fd s).Attended := by
  refine ⟨attended.sound.untouched ((untouched_refl m).setSock kind), attended.positive,
    fun x => ?_, fun d mem => attended.good d (queued d mem)⟩
  by_cases here : x = fd
  · rwa [here, setSock_self]
  · rw [setSock_of_ne m s here]
    exact attended.arrived x

/-- Only the socket of the multicast address has datagrams. -/
theorem queued_setSock (m : SMessenger) {s : Sock} (other : fd ≠ m.mcsock) :
    (m.setSock fd s).queued = m.queued := by
  rw [queued, setSock_mcsock, setSock_of_ne m s other.symm, queued]

theorem Attended.not_mcsock (attended : m.Attended) (stream : (m.sock fd).kind = .stream) :
    fd ≠ m.mcsock := by
  rintro rfl
  rw [attended.sound.multicast] at stream
  cases stream

theorem Attended.serves (attended : m.Attended) (serves : Serves m result) :
    result.2.Attended := by
  cases serves with
  | frame member open_ =>
      have other := attended.not_mcsock (congrArg Sock.kind open_)
      refine attended.setSock (congrArg Sock.kind open_).symm rfl fun d mem => ?_
      rwa [queued_setSock m other] at mem
  | datagram open_ =>
      refine attended.setSock (congrArg Sock.kind open_).symm rfl fun d mem => ?_
      rw [queued_eq (SMessenger.setSock_self m _ _)] at mem
      rw [queued_eq open_]
      exact List.mem_cons_of_mem _ mem
  | ended member open_ finished =>
      rename_i fd buffer eof remote
      have other := attended.not_mcsock (congrArg Sock.kind open_)
      have sound := attended.sound.drop other none
      rw [socketErrorHandling, if_neg other] at sound
      refine ⟨sound, fun x mem => attended.positive x (List.mem_of_mem_erase mem), fun x => ?_,
        fun d mem => attended.good d ?_⟩
      · show ((m.setSock fd .closed).sock x).Arrived
        by_cases here : x = fd
        · rw [here, setSock_self]
          trivial
        · rw [setSock_of_ne m _ here]
          exact attended.arrived x
      · rwa [← m.queued_setSock other]

/-- Once no message is left, only ends of connections are returned. -/
theorem Drained.serves (attended : m.Attended) (drained : m.Drained) (serves : Serves m result) :
    result.2.Drained := by
  cases serves with
  | frame member open_ =>
      have spent := drained _ member
      rw [open_, Sock.Spent, parse_frame] at spent
      cases spent
  | datagram open_ =>
      have spent := drained _ ((attended.sound.exact m.mcsock).mpr (.inl rfl))
      rw [open_] at spent
      cases spent
  | ended member open_ finished =>
      intro x mem
      obtain ⟨other, member⟩ := attended.sound.distinct.mem_erase_iff.mp mem
      show ((m.setSock _ .closed).sock x).Spent
      rw [setSock_of_ne m _ other]
      exact drained x member

/-- A connection that is closed has no message left. -/
theorem Serves.closes (serves : Serves m result) (stream : (m.sock fd).kind = .stream)
    (closed : (result.2.sock fd).kind ≠ .stream) :
    result.1 = some (SMsg.ofError errcodePeerDisconnected 0 0 fd) ∧
      framing.parse (m.sock fd).pending = [] := by
  have stays : ∀ {x : SocketType} {s : Sock}, s.kind = (m.sock x).kind →
      ((m.setSock x s).sock fd).kind = .stream := fun same =>
    (((untouched_refl m).setSock same).kind fd).trans stream
  cases serves with
  | frame member open_ => exact (closed (stays (by rw [open_]; rfl))).elim
  | datagram open_ => exact (closed (stays (by rw [open_]; rfl))).elim
  | ended member open_ finished =>
      rename_i x buffer eof remote
      by_cases here : fd = x
      · subst here
        rw [open_, Sock.pending, List.append_nil]
        exact ⟨rfl, finished⟩
      · have same : ((m.setSock x .closed).sock fd).kind = (m.sock fd).kind := by
          rw [setSock_of_ne m _ here]
        exact absurd (same.trans stream) closed

theorem drained_of_load (nothing : m.load = 0) : m.Drained := by
  intro fd member
  have none : (m.sock fd).load = 0 :=
    List.sum_eq_zero_iff.mp nothing _ (List.mem_map_of_mem member)
  cases eq : m.sock fd with
  | stream wire buffer eof remote =>
      rw [eq] at none
      cases none
  | dgram wire queue =>
      rw [eq] at none
      exact List.length_eq_zero_iff.mp none
  | closed => trivial

/-- In an open connection no frame is left. -/
theorem Drained.parse (attended : m.Attended) (drained : m.Drained)
    (stream : (m.sock fd).kind = .stream) : framing.parse (m.sock fd).pending = [] := by
  have member := (attended.sound.exact fd).mpr (.inr stream)
  have spent := drained fd member
  rcases attended.kinds member with ⟨rfl, _⟩ | ⟨_, buffer, eof, remote, open_⟩
  · exact absurd rfl (attended.not_mcsock stream)
  · rw [open_] at spent ⊢
    rw [Sock.pending, List.append_nil]
    exact spent

theorem Drained.queued (attended : m.Attended) (drained : m.Drained) : m.queued = [] := by
  have spent := drained _ ((attended.sound.exact m.mcsock).mpr (.inl rfl))
  rw [SMessenger.queued]
  split
  case h_1 wire queue open_ =>
    rw [open_] at spent
    exact spent
  case h_2 => rfl

end SMessenger

end LibSBus
