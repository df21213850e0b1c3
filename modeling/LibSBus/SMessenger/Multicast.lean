import LibSBus.SMessenger.Recv

/-!
Malformed datagrams on the multicast socket. `nextMsg` reads datagrams as if
they were pieces of a stream. One that is shorter than it should be is taken to
be incomplete and stays at the head of the queue. One that is empty, or whose
header announces a negative or too great a length, is taken for a broken
connection: the socket is closed and opened again, and what was queued behind it
is gone. So a queue is received as it should be only if nothing well-formed is
queued behind the first malformed datagram and that one is of the second kind.
-/

namespace LibSBus

open Lib

namespace Datagram

/-- The header is complete, the length is allowed, and that many bytes follow. -/
def WellFormed (d : Datagram) : Prop :=
  hdrlen ≤ d.bytes.length ∧ 0 ≤ datasize d.bytes ∧ datasize d.bytes ≤ maxDatalen ∧
    datasize d.bytes ≤ d.bytes.length - hdrlen

instance (d : Datagram) : Decidable d.WellFormed :=
  inferInstanceAs (Decidable (_ ∧ _ ∧ _ ∧ _))

/-- Empty, or with a length in its header that no message can have. -/
def Rejected (d : Datagram) : Prop :=
  d.bytes = [] ∨
    (hdrlen ≤ d.bytes.length ∧ ¬ (0 ≤ datasize d.bytes ∧ datasize d.bytes ≤ maxDatalen))

/-- The message in a well-formed datagram. -/
def message (socket : SocketType) (d : Datagram) : SMsg :=
  { msgtag := (unpackhdr (d.bytes.take hdrlen)).1
    ip := if d.ip = 0 then -1 else d.ip
    port := (unpackhdr (d.bytes.take hdrlen)).2.1
    socket
    msg := (d.bytes.drop hdrlen).take (datasize d.bytes).toNat
    error := false }

theorem Rejected.not_wellFormed {d : Datagram} (rejected : d.Rejected) : ¬ d.WellFormed := by
  rintro ⟨long, low, high, _⟩
  rcases rejected with empty | ⟨_, bad⟩
  · rw [empty] at long
    exact absurd long (by decide)
  · exact bad ⟨low, high⟩

end Datagram

variable {d : Datagram} {rest : List Datagram} {late later : Nat}

theorem nextMsg_wellFormed (good : d.WellFormed) (fd : SocketType) :
    nextMsg maxDatalen (.dgram [] (d :: rest)) late later =
      (.message (d.message fd).msgtag (d.message fd).ip (d.message fd).port (d.message fd).msg,
        .dgram [] rest) := by
  obtain ⟨long, low, high, whole⟩ := good
  obtain ⟨f, found, tag, port, data⟩ :=
    scan_frame (⟨low, high⟩ : 0 ≤ datasize d.bytes ∧ _) (by omega)
  have nonempty : d.bytes ≠ [] := by
    intro empty
    rw [empty] at long
    exact absurd long (by decide)
  rw [nextMsg_dgram]
  dsimp only
  rw [if_neg nonempty, if_neg (Nat.not_lt.mpr long), found]
  simp [Sock.arrive, Sock.consume, Datagram.message, tag, port, data]

theorem nextMsg_rejected (bad : d.Rejected) :
    nextMsg maxDatalen (.dgram [] (d :: rest)) late later = (.error, .dgram [] (d :: rest)) := by
  rw [nextMsg_dgram]
  dsimp only
  rcases bad with empty | ⟨long, bad⟩
  · rw [if_pos empty]
  · have nonempty : d.bytes ≠ [] := by
      intro empty
      rw [empty] at long
      exact absurd long (by decide)
    rw [if_neg nonempty, if_neg (Nat.not_lt.mpr long), scan_invalid long bad]

/-- A datagram of any other kind stays where it is. -/
theorem nextMsg_stuck (bad : ¬ d.WellFormed) (kept : ¬ d.Rejected) :
    nextMsg maxDatalen (.dgram [] (d :: rest)) late later =
      (.pending, .dgram [] (d :: rest)) := by
  rw [Datagram.Rejected, not_or] at kept
  rw [nextMsg_dgram]
  dsimp only
  rw [if_neg kept.1]
  by_cases short : d.bytes.length < hdrlen
  · rw [if_pos short]
  · have long := Nat.le_of_not_lt short
    have small : 0 ≤ datasize d.bytes ∧ datasize d.bytes ≤ maxDatalen := by
      by_contra big
      exact kept.2 ⟨long, big⟩
    have part : d.bytes.length < hdrlen + (datasize d.bytes).toNat := by
      by_contra whole
      exact bad ⟨long, small.1, small.2, by omega⟩
    rw [if_neg short, scan_incomplete long small part]
    simp [Sock.arrive]

theorem nextMsg_dgram_nil :
    nextMsg maxDatalen (.dgram [] []) late later = (.pending, .dgram [] []) := rfl

namespace SMessenger

/-- The datagrams queued on the multicast socket. -/
def queued (m : SMessenger) : List Datagram :=
  match m.sock m.mcsock with
  | .dgram _ queue => queue
  | _ => []

/-- The states met here: the multicast socket is open and no datagram is under
way to it, or it could not be reopened. -/
structure Settled (m : SMessenger) : Prop where
  positive : ∀ fd ∈ m.spoll, 0 < fd
  invalid : m.sock invalidSocket = .closed
  open_or_lost : m.sock m.mcsock = .dgram [] m.queued ∨ m.mcsock = invalidSocket

/-- What a call, or a part of it, does to the queue. -/
inductive Outcome (mcsock : SocketType) : List Datagram → Option SMsg → List Datagram → Prop
  | same (queue : List Datagram) (out : Option SMsg)
      (elsewhere : ∀ msg, out = some msg → msg.error ∨ msg.socket ≠ mcsock) :
      Outcome mcsock queue out queue
  | taken (d : Datagram) (rest : List Datagram) (good : d.WellFormed) :
      Outcome mcsock (d :: rest) (some (d.message mcsock)) rest
  | dropped (d : Datagram) (rest : List Datagram) (bad : d.Rejected) (msg : SMsg)
      (error : msg.error) : Outcome mcsock (d :: rest) (some msg) []

variable {m m' : SMessenger} {fd : SocketType} {look : Look} {s : Sock}

theorem queued_eq {queue : List Datagram} (h : m.sock m.mcsock = .dgram [] queue) :
    m.queued = queue := by
  rw [queued, h]

theorem Settled.arrive (settled : Settled m) (arrivals : SocketType → Nat) :
    Settled (m.arrive arrivals) ∧ (m.arrive arrivals).queued = m.queued := by
  have invalid : (m.arrive arrivals).sock invalidSocket = .closed := by
    rw [arrive_sock, settled.invalid, Sock.arrive]
  rcases settled.open_or_lost with opened | lost
  · have opened' : (m.arrive arrivals).sock (m.arrive arrivals).mcsock = .dgram [] m.queued := by
      rw [arrive_sock, arrive_mcsock, opened]
      simp [Sock.arrive]
    have queue := queued_eq opened'
    exact ⟨⟨settled.positive, invalid, .inl (queue ▸ opened')⟩, queue⟩
  · have none : (m.arrive arrivals).queued = m.queued := by
      rw [queued, queued, arrive_mcsock, lost, invalid, settled.invalid]
    exact ⟨⟨settled.positive, invalid, .inr lost⟩, none⟩

theorem Settled.setSock_other (settled : Settled m) (used : 0 < fd) (other : fd ≠ m.mcsock)
    (s : Sock) : Settled (m.setSock fd s) ∧ (m.setSock fd s).queued = m.queued := by
  have here := setSock_of_ne m s other.symm
  have queue : (m.setSock fd s).queued = m.queued := by
    rw [queued, queued, setSock_mcsock, here]
  refine ⟨⟨settled.positive, ?_, ?_⟩, queue⟩
  · rw [setSock_of_ne, settled.invalid]
    rintro rfl
    exact absurd used (by decide)
  · rw [queue, setSock_mcsock, here]
    exact settled.open_or_lost

theorem Settled.setSock_multicast (settled : Settled m) (used : 0 < m.mcsock)
    (queue : List Datagram) : Settled (m.setSock m.mcsock (.dgram [] queue)) ∧
      (m.setSock m.mcsock (.dgram [] queue)).queued = queue := by
  have here := setSock_self m m.mcsock (.dgram [] queue)
  have eq := queued_eq (m := m.setSock m.mcsock (.dgram [] queue)) here
  refine ⟨⟨settled.positive, ?_, .inl (eq.symm ▸ here)⟩, eq⟩
  rw [setSock_of_ne, settled.invalid]
  intro same
  rw [← same] at used
  exact absurd used (by decide)

theorem Settled.error_other (settled : Settled m) (used : 0 < fd) (other : fd ≠ m.mcsock)
    (reopened : Option SocketType) : Settled (m.socketErrorHandling fd reopened) ∧
      (m.socketErrorHandling fd reopened).queued = m.queued := by
  obtain ⟨⟨positive, invalid, opened⟩, queue⟩ := settled.setSock_other used other .closed
  rw [socketErrorHandling, if_neg other]
  exact ⟨⟨fun x hx => positive x (List.mem_of_mem_erase hx), invalid, opened⟩, queue⟩

theorem Settled.error_multicast (settled : Settled m) (used : 0 < m.mcsock)
    {reopened : Option SocketType} (fresh : ∀ fd, reopened = some fd → 0 < fd) :
    Settled (m.socketErrorHandling m.mcsock reopened) ∧
      (m.socketErrorHandling m.mcsock reopened).queued = [] := by
  have apart : invalidSocket ≠ m.mcsock := by
    intro same
    rw [← same] at used
    exact absurd used (by decide)
  have invalid : (m.setSock m.mcsock .closed).sock invalidSocket = .closed := by
    rw [setSock_of_ne m _ apart, settled.invalid]
  rw [socketErrorHandling, if_pos rfl]
  cases reopened with
  | none =>
      have here : ((m.setSock m.mcsock .closed).initMCast none).sock
          ((m.setSock m.mcsock .closed).initMCast none).mcsock = .closed := invalid
      have queue : ((m.setSock m.mcsock .closed).initMCast none).queued = [] := by
        rw [queued, here]
      exact ⟨⟨settled.positive, invalid, .inr rfl⟩, queue⟩
  | some fd =>
      have positive := fresh fd rfl
      have here := setSock_self (m.setSock m.mcsock .closed) fd (.dgram [] [])
      have queue := queued_eq (m := (m.setSock m.mcsock .closed).initMCast (some fd)) here
      refine ⟨⟨?_, ?_, .inl (queue.symm ▸ here)⟩, queue⟩
      · intro x hx
        rcases List.mem_append.mp hx with old | new
        · exact settled.positive x old
        · exact List.mem_singleton.mp new ▸ positive
      · refine (setSock_of_ne (m.setSock m.mcsock .closed) _ ?_).trans invalid
        rintro rfl
        exact absurd positive (by decide)

/-- A visit that the environment allows: the multicast socket is in order, and a
reopened one gets a valid number. -/
def LookAllowed (m : SMessenger) (fd : SocketType) (look : Look) : Prop :=
  (fd = m.mcsock → ¬ look.Problem) ∧ ∀ x, look.reopened = some x → 0 < x

/-- The head of the queue is of the kind that `nextMsg` reads again and again. -/
def Stuck (queue : List Datagram) : Prop :=
  ∃ d rest, queue = d :: rest ∧ ¬ d.WellFormed ∧ ¬ d.Rejected

/-- What a visit does that gives no message. -/
def Passed (m : SMessenger) (fd : SocketType) (look : Look) (m' : SMessenger) : Prop :=
  m'.mcsock = m.mcsock ∧ m'.spoll = m.spoll ∧ m'.queued = m.queued ∧
    (fd = m.mcsock → look.has POLLIN → m.queued = [] ∨ Stuck m.queued)

section Heads

variable {d : Datagram} {rest : List Datagram} (used : 0 < m.mcsock) (fine : ¬ look.Problem)
  (readable : look.has POLLIN)
  (opened : (m.arrive look.arrivals).sock m.mcsock = .dgram [] (d :: rest))

include used fine readable opened

/-- What a visit makes of each kind of datagram at the head. -/
theorem visit_wellFormed (good : d.WellFormed) :
    m.visit m.mcsock look = (some (d.message m.mcsock),
      (m.arrive look.arrivals).setSock m.mcsock (.dgram [] rest)) :=
  visit_message used fine readable (by rw [opened]; exact nextMsg_wellFormed good m.mcsock)

theorem visit_rejected (bad : d.Rejected) :
    m.visit m.mcsock look = (some (SMsg.ofError errcodePeerDisconnected 0 0 m.mcsock),
      ((m.arrive look.arrivals).setSock m.mcsock (.dgram [] (d :: rest))).socketErrorHandling
        m.mcsock look.reopened) :=
  visit_error used fine readable (by rw [opened]; exact nextMsg_rejected bad)

theorem visit_stuck (bad : ¬ d.WellFormed) (kept : ¬ d.Rejected) :
    m.visit m.mcsock look =
      (none, (m.arrive look.arrivals).setSock m.mcsock (.dgram [] (d :: rest))) :=
  visit_pending used fine readable (by rw [opened]; exact nextMsg_stuck bad kept)

end Heads

theorem Settled.opened (settled : Settled m) (used : 0 < m.mcsock) :
    m.sock m.mcsock = .dgram [] m.queued := by
  rcases settled.open_or_lost with opened | lost
  · exact opened
  · rw [lost] at used
    exact absurd used (by decide)

/-- A visit of the multicast socket that reads it. -/
theorem visit_multicast (settled : Settled m) (used : 0 < m.mcsock) (fine : ¬ look.Problem)
    (readable : look.has POLLIN) (fresh : ∀ fd, look.reopened = some fd → 0 < fd) :
    Settled (m.visit m.mcsock look).2 ∧
      Outcome m.mcsock m.queued (m.visit m.mcsock look).1 (m.visit m.mcsock look).2.queued ∧
      ((m.visit m.mcsock look).1 = none → m.Passed m.mcsock look (m.visit m.mcsock look).2) := by
  obtain ⟨settled', queue⟩ := settled.arrive look.arrivals
  have opened : (m.arrive look.arrivals).sock m.mcsock = .dgram [] m.queued :=
    queue ▸ settled'.opened used
  have holds : ∀ q, Settled ((m.arrive look.arrivals).setSock m.mcsock (.dgram [] q)) ∧
      ((m.arrive look.arrivals).setSock m.mcsock (.dgram [] q)).queued = q :=
    settled'.setSock_multicast used
  cases eq : m.queued with
  | nil =>
      have read : nextMsg maxDatalen ((m.arrive look.arrivals).sock m.mcsock) look.late
          look.later = (.pending, .dgram [] []) := by
        rw [opened, eq, nextMsg_dgram_nil]
      have kept := holds []
      rw [visit_pending used fine readable read]
      refine ⟨kept.1, ?_, fun _ => ⟨rfl, rfl, kept.2.trans eq.symm, fun _ _ => .inl eq⟩⟩
      rw [kept.2]
      exact .same _ _ fun msg none => by cases none
  | cons d rest =>
      rw [eq] at opened
      have kept := holds (d :: rest)
      by_cases good : d.WellFormed
      · have after := holds rest
        rw [visit_wellFormed used fine readable opened good]
        refine ⟨after.1, ?_, fun none => by cases none⟩
        rw [after.2]
        exact .taken d rest good
      · by_cases bad : d.Rejected
        · have after : Settled (((m.arrive look.arrivals).setSock m.mcsock
              (.dgram [] (d :: rest))).socketErrorHandling m.mcsock look.reopened) ∧
              (((m.arrive look.arrivals).setSock m.mcsock
                (.dgram [] (d :: rest))).socketErrorHandling m.mcsock look.reopened).queued = [] :=
            kept.1.error_multicast used fresh
          rw [visit_rejected used fine readable opened bad]
          refine ⟨after.1, ?_, fun none => by cases none⟩
          rw [after.2]
          exact .dropped d rest bad _ rfl
        · rw [visit_stuck used fine readable opened good bad]
          refine ⟨kept.1, ?_, fun _ => ⟨rfl, rfl, kept.2.trans eq.symm, fun _ _ =>
            .inr ⟨d, rest, eq, good, bad⟩⟩⟩
          rw [kept.2]
          exact .same _ _ fun msg none => by cases none

/-- One visit of any entry. -/
theorem visit_outcome (settled : Settled m) (used : 0 < fd) (allowed : m.LookAllowed fd look) :
    Settled (m.visit fd look).2 ∧
      Outcome m.mcsock m.queued (m.visit fd look).1 (m.visit fd look).2.queued ∧
      ((m.visit fd look).1 = none → m.Passed fd look (m.visit fd look).2) := by
  obtain ⟨settled', queue⟩ := settled.arrive look.arrivals
  have error : ∀ q, Outcome m.mcsock q (some (SMsg.ofError errcodePeerDisconnected 0 0 fd)) q :=
    fun q => .same q _ fun msg eq => .inl (Option.some.inj eq ▸ rfl)
  have none : ∀ q, Outcome m.mcsock q none q := fun q => .same q _ fun msg eq => by cases eq
  by_cases problem : look.Problem
  · have other : fd ≠ m.mcsock := fun same => allowed.1 same problem
    obtain ⟨after, queue'⟩ := settled'.error_other used other look.reopened
    rw [visit_problem (Int.ne_of_gt used) problem]
    refine ⟨after, ?_, fun none => by cases none⟩
    rw [queue', queue]
    exact error _
  by_cases readable : look.has POLLIN
  · by_cases other : fd = m.mcsock
    · subst other
      exact visit_multicast settled used problem readable allowed.2
    · rcases read : nextMsg maxDatalen ((m.arrive look.arrivals).sock fd) look.late look.later with
        ⟨_ | _ | ⟨msgtag, ip, port, msg⟩, s⟩
      · obtain ⟨between, queue'⟩ := settled'.setSock_other used other s
        obtain ⟨after, queue''⟩ := between.error_other used other look.reopened
        rw [visit_error used problem readable read]
        refine ⟨after, ?_, fun none => by cases none⟩
        rw [queue'', queue', queue]
        exact error _
      · obtain ⟨after, queue'⟩ := settled'.setSock_other used other s
        rw [visit_pending used problem readable read]
        refine ⟨after, ?_, fun _ => ⟨rfl, rfl, queue'.trans queue, fun same => absurd same other⟩⟩
        rw [queue', queue]
        exact none _
      · obtain ⟨after, queue'⟩ := settled'.setSock_other used other s
        rw [visit_message used problem readable read]
        refine ⟨after, ?_, fun none => by cases none⟩
        rw [queue', queue]
        exact .same _ _ fun msg eq => .inr (Option.some.inj eq ▸ other)
  · rw [visit_idle (.inr ⟨problem, readable⟩)]
    refine ⟨settled', ?_, fun _ => ⟨rfl, rfl, queue, fun _ h => absurd h readable⟩⟩
    rw [queue]
    exact none _

/-- What a part of a call does that gives no message, for all entries it visits. -/
def PassedAll (m : SMessenger) (entries : List (SocketType × Look)) (m' : SMessenger) : Prop :=
  m'.mcsock = m.mcsock ∧ m'.spoll = m.spoll ∧ m'.queued = m.queued ∧
    ∀ look, (m.mcsock, look) ∈ entries → look.has POLLIN → m.queued = [] ∨ Stuck m.queued

theorem pass_outcome (entries : List (SocketType × Look)) (settled : Settled m)
    (allowed : ∀ entry ∈ entries, 0 < entry.1 ∧ m.LookAllowed entry.1 entry.2) :
    Settled (m.pass entries).2 ∧
      Outcome m.mcsock m.queued (m.pass entries).1 (m.pass entries).2.queued ∧
      ((m.pass entries).1 = none → m.PassedAll entries (m.pass entries).2) := by
  induction entries generalizing m with
  | nil =>
      refine ⟨settled, .same _ _ (fun msg eq => by cases eq), fun _ => ⟨rfl, rfl, rfl, ?_⟩⟩
      intro look mem
      cases mem
  | cons entry rest ih =>
      obtain ⟨fd, look⟩ := entry
      obtain ⟨⟨used, here⟩, later⟩ := List.forall_mem_cons.mp allowed
      obtain ⟨settled', outcome, passed⟩ := visit_outcome settled used here
      rw [pass]
      rcases visited : m.visit fd look with ⟨_ | msg, m'⟩
      · rw [visited] at settled' outcome passed
        obtain ⟨mcsock, spoll, queue, head⟩ := passed rfl
        dsimp only at mcsock spoll queue settled' ⊢
        have rest' := ih settled' fun entry mem => by
          rw [LookAllowed, mcsock]
          exact later entry mem
        rw [mcsock, queue] at rest'
        refine ⟨rest'.1, rest'.2.1, fun none => ?_⟩
        obtain ⟨mcsock', spoll', queue', heads⟩ := rest'.2.2 none
        refine ⟨mcsock'.trans mcsock, spoll'.trans spoll, queue'.trans queue, ?_⟩
        intro look' mem readable
        rcases List.mem_cons.mp mem with same | mem
        · obtain ⟨rfl, rfl⟩ := Prod.mk.inj same
          exact head rfl readable
        · rw [mcsock, queue] at heads
          exact heads look' mem readable
      · rw [visited] at settled' outcome
        exact ⟨settled', outcome, fun none => by cases none⟩

theorem polls_outcome (passes : List (List Look)) (settled : Settled m)
    (allowed : ∀ looks ∈ passes, ∀ entry ∈ m.spoll.zip looks, m.LookAllowed entry.1 entry.2) :
    Settled (m.polls passes).2 ∧
      Outcome m.mcsock m.queued (m.polls passes).1 (m.polls passes).2.queued ∧
      ((m.polls passes).1 = none → (m.polls passes).2.queued = m.queued ∧
        ∀ looks ∈ passes, ∀ look, (m.mcsock, look) ∈ m.spoll.zip looks → look.has POLLIN →
          m.queued = [] ∨ Stuck m.queued) := by
  induction passes generalizing m with
  | nil =>
      refine ⟨settled, .same _ _ (fun msg eq => by cases eq), fun _ => ⟨rfl, ?_⟩⟩
      intro looks mem
      cases mem
  | cons looks more ih =>
      obtain ⟨here, later⟩ := List.forall_mem_cons.mp allowed
      obtain ⟨settled', outcome, passed⟩ := pass_outcome (m.spoll.zip looks) settled
        fun entry mem => ⟨settled.positive _ (List.of_mem_zip mem).1, here entry mem⟩
      rw [polls]
      rcases visited : m.pass (m.spoll.zip looks) with ⟨_ | msg, m'⟩
      · rw [visited] at settled' outcome passed
        obtain ⟨mcsock, spoll, queue, heads⟩ := passed rfl
        dsimp only at mcsock spoll queue settled' ⊢
        have rest := ih settled' fun looks' mem entry mem' => by
          rw [LookAllowed, mcsock]
          rw [spoll] at mem'
          exact later looks' mem entry mem'
        rw [mcsock, spoll, queue] at rest
        refine ⟨rest.1, rest.2.1, fun none => ⟨(rest.2.2 none).1, ?_⟩⟩
        intro looks' mem look
        rcases List.mem_cons.mp mem with rfl | mem
        · exact heads look
        · exact (rest.2.2 none).2 looks' mem look
      · rw [visited] at settled' outcome
        exact ⟨settled', outcome, fun none => by cases none⟩

/-- Calls the environment allows: the kernel hands out valid numbers, an accepted
connection does not get the number of the open multicast socket, and that socket
is not reported broken. -/
def EnvAllowed (m : SMessenger) (env : RecvEnv) : Prop :=
  (∀ fd s, env.listen = .incoming (some (fd, s)) → 0 < fd ∧ fd ≠ m.mcsock) ∧
    ∀ looks ∈ env.passes, ∀ entry ∈ (m.listenConn env.listen).2.spoll.zip looks,
      m.LookAllowed entry.1 entry.2

/-- `poll` reports the multicast socket readable during the call. -/
def Reports (m : SMessenger) (env : RecvEnv) : Prop :=
  0 ≤ (m.listenConn env.listen).1 ∧ ∃ looks ∈ env.passes, ∃ look,
    (m.mcsock, look) ∈ (m.listenConn env.listen).2.spoll.zip looks ∧ look.has POLLIN

theorem Settled.listenConn (settled : Settled m) {listen : Listen}
    (fresh : ∀ fd s, listen = .incoming (some (fd, s)) → 0 < fd ∧ fd ≠ m.mcsock) :
    Settled (m.listenConn listen).2 ∧ (m.listenConn listen).2.queued = m.queued ∧
      (m.listenConn listen).2.mcsock = m.mcsock := by
  have unchanged : ∀ number, Settled { m with servsock := number } ∧
      ({ m with servsock := number } : SMessenger).queued = m.queued := fun number =>
    ⟨⟨settled.positive, settled.invalid, settled.open_or_lost⟩, rfl⟩
  cases listen with
  | idle => exact ⟨settled, rfl, rfl⟩
  | broken reopened =>
      cases reopened with
      | none => exact ⟨(unchanged _).1, (unchanged _).2, rfl⟩
      | some fd => exact ⟨(unchanged _).1, (unchanged _).2, rfl⟩
  | incoming accepted =>
      cases accepted with
      | none => exact ⟨settled, rfl, rfl⟩
      | some connection =>
          obtain ⟨fd, s⟩ := connection
          obtain ⟨used, other⟩ := fresh fd s rfl
          obtain ⟨⟨positive, invalid, opened⟩, queue⟩ := settled.setSock_other used other s
          refine ⟨⟨?_, invalid, opened⟩, queue, rfl⟩
          intro x hx
          rcases List.mem_append.mp hx with old | new
          · exact positive x old
          · exact List.mem_singleton.mp new ▸ used

theorem recv_outcome {env : RecvEnv} (settled : Settled m) (allowed : m.EnvAllowed env) :
    Settled (m.recv env).2 ∧
      Outcome m.mcsock m.queued (m.recv env).1 (m.recv env).2.queued ∧
      ((m.recv env).1 = none → (m.recv env).2.queued = m.queued ∧
        (m.Reports env → m.queued = [] ∨ Stuck m.queued)) := by
  obtain ⟨settled', queue, mcsock⟩ := settled.listenConn allowed.1
  rw [recv]
  rcases listened : m.listenConn env.listen with ⟨res, m'⟩
  have looks := allowed.2
  rw [listened] at settled' queue mcsock looks
  dsimp only at settled' queue mcsock looks ⊢
  split
  case isTrue failed =>
    refine ⟨settled', ?_, fun _ => ⟨queue, fun reports => ?_⟩⟩
    · rw [queue]
      exact .same _ _ fun msg eq => by cases eq
    · have passed := reports.1
      rw [listened] at passed
      exact absurd failed (Int.not_lt.mpr passed)
  case isFalse ready =>
    have rest := polls_outcome env.passes settled' fun looks' mem entry mem' => by
      rw [LookAllowed, mcsock]
      exact looks looks' mem entry mem'
    rw [mcsock, queue] at rest
    refine ⟨rest.1, rest.2.1, fun none => ⟨(rest.2.2 none).1, ?_⟩⟩
    rintro ⟨_, looks', mem, look, mem', readable⟩
    rw [listened] at mem'
    exact (rest.2.2 none).2 looks' mem look mem' readable

/-- The messages a call returns from the multicast socket. -/
def fromMulticast (m : SMessenger) (out : Option SMsg) : List SMsg :=
  out.toList.filter fun msg => !msg.error && msg.socket == m.mcsock

/-- What is promised of one call. It handles an initial part of the queue, and
the well-formed datagrams of that part are what it returns, so that no
well-formed one is lost. A call that returns nothing although the socket was
reported readable has handled some of the queue, so that none stays for ever. -/
def HandlesQueue (m : SMessenger) (env : RecvEnv) : Prop :=
  ∃ handled, m.queued = handled ++ (m.recv env).2.queued ∧
    m.fromMulticast (m.recv env).1 =
      (handled.filter fun d => decide d.WellFormed).map (Datagram.message m.mcsock) ∧
    ((m.recv env).1 = none → m.Reports env → m.queued ≠ [] → handled ≠ [])

/-- Nothing well-formed is queued behind the first malformed datagram, and that
one is of the kind that is rejected. -/
def Harmless (queue : List Datagram) : Prop :=
  ∀ before d behind, queue = before ++ d :: behind → (∀ x ∈ before, x.WellFormed) →
    ¬ d.WellFormed → d.Rejected ∧ ∀ x ∈ behind, ¬ x.WellFormed

theorem harmless_nil : Harmless [] := by
  intro before d behind split
  exact absurd split (by simp)

theorem harmless_cons_iff (d : Datagram) (rest : List Datagram) :
    Harmless (d :: rest) ↔
      (d.WellFormed ∧ Harmless rest) ∨ (d.Rejected ∧ ∀ x ∈ rest, ¬ x.WellFormed) := by
  constructor
  · intro harmless
    by_cases good : d.WellFormed
    · refine .inl ⟨good, fun before x behind split earlier bad => ?_⟩
      refine harmless (d :: before) x behind (by rw [split]; rfl) ?_ bad
      exact List.forall_mem_cons.mpr ⟨good, earlier⟩
    · exact .inr (harmless [] d rest rfl (fun x hx => by cases hx) good)
  · intro either before x behind split earlier bad
    cases before with
    | nil =>
        obtain ⟨rfl, rfl⟩ := List.cons.inj split
        rcases either with ⟨good, _⟩ | last
        · exact absurd good bad
        · exact last
    | cons y before =>
        obtain ⟨rfl, rest_eq⟩ := List.cons.inj split
        have good := earlier d List.mem_cons_self
        rcases either with ⟨_, later⟩ | ⟨rejected, _⟩
        · exact later before x behind rest_eq
            (fun z hz => earlier z (List.mem_cons_of_mem d hz)) bad
        · exact absurd good rejected.not_wellFormed

theorem handles_of_harmless {queue queue' : List Datagram} {out : Option SMsg} {reports : Prop}
    (outcome : Outcome m.mcsock queue out queue') (harmless : Harmless queue)
    (passed : out = none → reports → queue = [] ∨ Stuck queue) :
    (∃ handled, queue = handled ++ queue' ∧
      m.fromMulticast out =
        (handled.filter fun d => decide d.WellFormed).map (Datagram.message m.mcsock) ∧
      (out = none → reports → queue ≠ [] → handled ≠ [])) ∧ Harmless queue' := by
  cases outcome with
  | same _ _ elsewhere =>
      refine ⟨⟨[], rfl, ?_, fun none here nonempty => ?_⟩, harmless⟩
      · cases out with
        | none => rfl
        | some msg =>
            rcases elsewhere msg rfl with error | other
            · simp [fromMulticast, error]
            · simp [fromMulticast, other]
      · rcases passed none here with empty | ⟨d, rest, rfl, bad, kept⟩
        · exact absurd empty nonempty
        · rcases (harmless_cons_iff d rest).mp harmless with ⟨good, _⟩ | ⟨rejected, _⟩
          · exact absurd good bad
          · exact absurd rejected kept
  | taken d rest good =>
      have later : Harmless queue' := by
        rcases (harmless_cons_iff d queue').mp harmless with ⟨_, later⟩ | ⟨rejected, _⟩
        · exact later
        · exact absurd good rejected.not_wellFormed
      refine ⟨⟨[d], rfl, ?_, fun none => by cases none⟩, later⟩
      simp [fromMulticast, good, Datagram.message]
  | dropped d rest bad msg error =>
      have lost : ∀ x ∈ d :: rest, ¬ x.WellFormed := by
        rcases (harmless_cons_iff d rest).mp harmless with ⟨good, _⟩ | ⟨_, later⟩
        · exact absurd good bad.not_wellFormed
        · exact List.forall_mem_cons.mpr ⟨bad.not_wellFormed, later⟩
      refine ⟨⟨d :: rest, (List.append_nil _).symm, ?_, fun none => by cases none⟩, harmless_nil⟩
      rw [List.filter_eq_nil_iff.mpr (by simpa using lost)]
      simp [fromMulticast, error]

/-- A look at an entry while nothing arrives. -/
def plainLook (revents : BitVec 16) : Look :=
  { revents, arrivals := fun _ => 0, late := 0, later := 0, reopened := none }

/-- A call that finds nothing but the multicast socket readable, once. -/
def readMulticast (m : SMessenger) : RecvEnv :=
  { listen := .idle
    passes := [m.spoll.map fun fd => plainLook (if fd = m.mcsock then POLLIN else 0)] }

/-- The start of a run: the multicast socket of the messenger is registered and
open, and all of the datagrams sent to it are queued. -/
structure Ready (m : SMessenger) : Prop where
  positive : ∀ fd ∈ m.spoll, 0 < fd
  registered : m.mcsock ∈ m.spoll
  opened : m.sock m.mcsock = .dgram [] m.queued
  invalid : m.sock invalidSocket = .closed

theorem Ready.settled (ready : Ready m) : Settled m :=
  ⟨ready.positive, ready.invalid, .inl ready.opened⟩

theorem Ready.used (ready : Ready m) : 0 < m.mcsock := ready.positive _ ready.registered

theorem arrive_plainLook (m : SMessenger) (revents : BitVec 16) :
    m.arrive (plainLook revents).arrivals = m := by
  simp [plainLook, arrive]

private theorem zip_map (l : List SocketType) (f : SocketType → Look) :
    l.zip (l.map f) = l.map fun fd => (fd, f fd) := by
  induction l with
  | nil => rfl
  | cons x l ih => rw [List.map_cons, List.zip_cons_cons, ih, List.map_cons]

private theorem readable_fine : ¬ (plainLook POLLIN).Problem ∧ (plainLook POLLIN).has POLLIN := by
  simp only [Look.Problem, Look.has, plainLook]
  decide

private theorem silent_idle : ¬ (plainLook 0).Problem ∧ ¬ (plainLook 0).has POLLIN := by
  simp only [Look.Problem, Look.has, plainLook]
  decide

/-- Nothing happens to the server socket in that call, so each entry is looked at as
it was. -/
private theorem zip_readMulticast (m : SMessenger) :
    (m.listenConn m.readMulticast.listen).2.spoll.zip
        (m.spoll.map fun fd => plainLook (if fd = m.mcsock then POLLIN else 0)) =
      m.spoll.map fun fd => (fd, plainLook (if fd = m.mcsock then POLLIN else 0)) :=
  zip_map m.spoll _

theorem readMulticast_allowed (m : SMessenger) : m.EnvAllowed m.readMulticast := by
  constructor
  · intro fd s h
    cases h
  · intro looks mem entry mem'
    obtain rfl := List.mem_singleton.mp mem
    rw [zip_readMulticast] at mem'
    obtain ⟨fd, _, rfl⟩ := List.mem_map.mp mem'
    refine ⟨fun same => ?_, fun x h => by cases h⟩
    dsimp only at same ⊢
    rw [if_pos same]
    exact readable_fine.1

theorem readMulticast_reports (ready : Ready m) : m.Reports m.readMulticast := by
  refine ⟨Int.le_refl 0, _, List.mem_singleton_self _, plainLook POLLIN, ?_, readable_fine.2⟩
  rw [zip_readMulticast]
  exact List.mem_map.mpr ⟨m.mcsock, ready.registered, by rw [if_pos rfl]⟩

/-- That call comes to the multicast socket, and does what a visit of it does. -/
theorem recv_readMulticast (ready : Ready m) {out : Option SMsg}
    (visited : m.visit m.mcsock (plainLook POLLIN) = (out, m')) (kept : out = none → m' = m) :
    m.recv m.readMulticast = (out, m') := by
  have passes : ∀ l : List SocketType, out = none ∨ m.mcsock ∈ l →
      m.pass (l.map fun fd => (fd, plainLook (if fd = m.mcsock then POLLIN else 0))) =
        (out, m') := by
    intro l
    induction l with
    | nil =>
        rintro (rfl | member)
        · rw [kept rfl]
          rfl
        · cases member
    | cons fd l ih =>
        intro either
        rw [List.map_cons, pass]
        by_cases here : fd = m.mcsock
        · rw [here, if_pos rfl, visited]
          cases out with
          | none =>
              rw [kept rfl] at ih ⊢
              exact ih (.inl rfl)
          | some msg => rfl
        · rw [if_neg here, visit_idle (.inr silent_idle)]
          rw [arrive_plainLook]
          refine ih (either.imp_right fun member => ?_)
          rcases List.mem_cons.mp member with same | member
          · exact absurd same.symm here
          · exact member
  have once := passes m.spoll (.inr ready.registered)
  rw [← zip_map] at once
  show m.polls [_] = _
  rw [polls, once]
  cases out with
  | none => rw [kept rfl]; rfl
  | some msg => rfl

/-- A datagram that is read again and again breaks the promise of that call. -/
theorem stuck_not_handled (ready : Ready m) (stuck : Stuck m.queued) :
    ¬ m.HandlesQueue m.readMulticast := by
  obtain ⟨d, rest, eq, bad, kept⟩ := stuck
  rintro ⟨handled, split, _, progress⟩
  have opened : (m.arrive (plainLook POLLIN).arrivals).sock m.mcsock = .dgram [] (d :: rest) := by
    rw [arrive_plainLook, ready.opened, eq]
  have same : (m.arrive (plainLook POLLIN).arrivals).setSock m.mcsock (.dgram [] (d :: rest)) =
      m := by
    rw [← opened, arrive_plainLook]
    simp [setSock]
  have visited := visit_stuck ready.used readable_fine.1 readable_fine.2 opened bad kept
  rw [same] at visited
  have call := recv_readMulticast ready visited fun _ => rfl
  rw [call] at split progress
  have none : handled = [] := List.append_left_eq_self.mp split.symm
  exact progress rfl (readMulticast_reports ready) (by rw [eq]; simp) none

/-- A messenger with no connections. -/
def onlyMulticast (queue : List Datagram) : SMessenger :=
  { servsock := 3, mcsock := 4, ip := 1, port := 1, spoll := [4]
    sock := fun fd => if fd = 4 then .dgram [] queue else .closed }

theorem ready_onlyMulticast (queue : List Datagram) : Ready (onlyMulticast queue) := by
  refine ⟨?_, List.mem_singleton_self _, rfl, rfl⟩
  intro fd member
  rw [List.mem_singleton.mp member]
  decide

/-- Three bytes, which is less than a header, stay at the head of the queue. -/
theorem short_datagram_stays :
    ¬ ∀ m : SMessenger, Ready m → ∀ envs, EachStep Next EnvAllowed m envs →
      EachStep Next HandlesQueue m envs := by
  intro always
  have ready := ready_onlyMulticast [{ ip := 2, bytes := [0, 1, 0] }]
  have stuck : Stuck (onlyMulticast [{ ip := 2, bytes := [0, 1, 0] }]).queued := by
    refine ⟨_, [], rfl, by decide, ?_⟩
    rw [Datagram.Rejected]
    decide
  have every := always _ ready [readMulticast _] ⟨readMulticast_allowed _, fun _ _ => trivial⟩
  exact stuck_not_handled ready stuck every.1

/-- Reading the head of the queue, when it is well-formed or rejected. -/
theorem read_wellFormed {d : Datagram} {rest : List Datagram} (ready : Ready m)
    (eq : m.queued = d :: rest) (good : d.WellFormed) :
    ∃ m', (m.recv m.readMulticast).2 = m' ∧ Ready m' ∧ m'.queued = rest := by
  have opened : (m.arrive (plainLook POLLIN).arrivals).sock m.mcsock = .dgram [] (d :: rest) := by
    rw [arrive_plainLook, ready.opened, eq]
  have visited := visit_wellFormed ready.used readable_fine.1 readable_fine.2 opened good
  have call := recv_readMulticast ready visited fun none => by cases none
  rw [arrive_plainLook] at call
  obtain ⟨settled', queue⟩ := ready.settled.setSock_multicast ready.used rest
  refine ⟨m.setSock m.mcsock (.dgram [] rest), by rw [call], ?_, queue⟩
  exact ⟨ready.positive, ready.registered, settled'.opened ready.used, settled'.invalid⟩

theorem read_rejected {d : Datagram} {rest : List Datagram} (ready : Ready m)
    (eq : m.queued = d :: rest) (bad : d.Rejected) (handles : m.HandlesQueue m.readMulticast) :
    ∀ x ∈ rest, ¬ x.WellFormed := by
  have opened : (m.arrive (plainLook POLLIN).arrivals).sock m.mcsock = .dgram [] (d :: rest) := by
    rw [arrive_plainLook, ready.opened, eq]
  have visited := visit_rejected ready.used readable_fine.1 readable_fine.2 opened bad
  have call := recv_readMulticast ready visited fun none => by cases none
  rw [arrive_plainLook] at call
  obtain ⟨settled', _⟩ := ready.settled.setSock_multicast ready.used (d :: rest)
  have lost := (settled'.error_multicast ready.used (fun x (h : none = some x) => by cases h)).2
  obtain ⟨handled, split, returned, _⟩ := handles
  rw [call] at split returned
  have all : handled = d :: rest := by
    rw [← eq, split]
    exact (List.append_nil handled).symm.trans (congrArg (handled ++ ·) lost.symm)
  have nothing : handled.filter (fun d => decide d.WellFormed) = [] := by
    refine List.map_eq_nil_iff.mp (returned.symm.trans ?_)
    simp [fromMulticast, SMsg.ofError]
  rw [all] at nothing
  intro x hx good
  exact List.filter_eq_nil_iff.mp nothing x (List.mem_cons_of_mem d hx) (by simpa using good)

theorem harmless_of_handles (queue : List Datagram) (ready : Ready m) (eq : m.queued = queue)
    (all : ∀ envs, EachStep Next EnvAllowed m envs → EachStep Next HandlesQueue m envs) :
    Harmless queue := by
  induction queue generalizing m with
  | nil => exact harmless_nil
  | cons d rest ih =>
      have allowed := readMulticast_allowed m
      have handles := (all [m.readMulticast] ⟨allowed, fun _ _ => trivial⟩).1
      apply (harmless_cons_iff d rest).mpr
      by_cases good : d.WellFormed
      · obtain ⟨m', next, ready', eq'⟩ := read_wellFormed ready eq good
        refine .inl ⟨good, ih ready' eq' fun envs later => ?_⟩
        refine (all (m.readMulticast :: envs) ⟨allowed, ?_⟩).2 m' next
        rintro _ rfl
        rwa [next]
      · by_cases bad : d.Rejected
        · exact .inr ⟨bad, read_rejected ready eq bad handles⟩
        · exact absurd handles (stuck_not_handled ready ⟨d, rest, eq, good, bad⟩)

/-- In every run of calls every call handles the queue as it should, if and only
if the queue is harmless. -/
theorem handles_queue_iff_harmless (ready : Ready m) :
    (∀ envs, EachStep Next EnvAllowed m envs → EachStep Next HandlesQueue m envs) ↔
      Harmless m.queued := by
  constructor
  · exact harmless_of_handles m.queued ready rfl
  · intro harmless envs
    have settled := ready.settled
    clear ready
    induction envs generalizing m with
    | nil => exact fun _ => trivial
    | cons env envs ih =>
        rintro ⟨here, later⟩
        obtain ⟨settled', outcome, passed⟩ := recv_outcome settled here
        obtain ⟨handles, harmless'⟩ := handles_of_harmless outcome harmless
          fun none reports => (passed none).2 reports
        refine ⟨handles, ?_⟩
        rintro _ rfl
        exact ih harmless' settled' (later _ rfl)

/-- A message followed by an empty datagram. -/
theorem handles_queue_iff_harmless_empty_last :
    (∀ envs, EachStep Next EnvAllowed
        (onlyMulticast [⟨2, [0, 1, 0, 0, 0, 0, 0, 1, 7]⟩, ⟨2, []⟩]) envs →
      EachStep Next HandlesQueue
        (onlyMulticast [⟨2, [0, 1, 0, 0, 0, 0, 0, 1, 7]⟩, ⟨2, []⟩]) envs) ↔
      Harmless (onlyMulticast [⟨2, [0, 1, 0, 0, 0, 0, 0, 1, 7]⟩, ⟨2, []⟩]).queued :=
  handles_queue_iff_harmless (ready_onlyMulticast _)

end SMessenger

end LibSBus
