import LibSBus.SBus.Descriptors
import LibSBus.SBus.Inbox
import LibSBus.SMessenger.Losses
import LibSBus.SMessenger.Stack

/-!
One instance with all its sockets, from the bytes its peers write to what `recv` gives
the application. The receiving thread polls the messenger and then pushes what it has
returned, the application takes messages from the queue, names itself and sends, and the
messenger connects and writes as it is asked to; meanwhile peers connect, write and close.
A call of `recv` of the messenger is one step; between it and the push anything may happen.

Connections are numbered as they are made, as in the model of the two threads: a queued
message comes with the number of the connection it is from, which is not in the source.
So the messages of a connection can be followed after its descriptor is closed and given
to another one.
-/

namespace LibSBus

open Lib SContacts

/-- A connection: its descriptor, the peer's ip and the port of the near end, what the
peer has written to it, what was written on it, and the messages of the sends on it that
succeeded, with the tag as it was given to `send` and the port. -/
structure Conn where
  fd : SocketType
  remote : IP
  localPort : Port
  written : CString
  wrote : CString
  sent : List (Int × Port × CString)

/-- `held` is what the messenger has returned and `inLoop` has not pushed yet, `stack` what
its thread has for a call of the messenger; `taken` are the messages the loop of `recv` has
taken from the queue, with what `processSMsg` has returned. -/
structure Node where
  bus : SBus
  messenger : SMessenger
  stack : Nat
  held : Option Queued
  inq : List Queued
  opened : SocketType → Option Nat
  conn : Nat → Conn
  conns : Nat
  taken : List (Queued × SBusPeer)

/-- What the kernel answers while something is sent: the socket of a new connection, if
there is one, the port of its near end, whether the `poll` that waits for it succeeds,
how much of a message is taken on a connection, and whether a datagram is. -/
structure Kernel where
  client : Option (SocketType × Sock)
  localPort : Port
  polled : Bool
  accepts : Option Nat
  accepted : Bool

namespace Node

/-- `SBus::init` -/
def init (ip : IP) (servsock : SocketType) (port : Port) (mcsock : SocketType) (stack : Nat) :
    Option Node :=
  (SMessenger.construct ip servsock port mcsock).map fun messenger =>
    { bus := .init messenger.ip messenger.port messenger.mcsock, messenger
      stack, held := none, inq := []
      opened := fun _ => none
      conn := fun _ =>
        { fd := invalidSocket, remote := 0, localPort := 0, written := [], wrote := [], sent := [] }
      conns := 0, taken := [] }

/-- A connection is new, with what its peer has written already. -/
def opening (n : Node) (localPort : Port) : Option (SocketType × Sock) → Node
  | none => n
  | some (fd, s) =>
      { n with
        opened := Function.update n.opened fd (some n.conns)
        conn := Function.update n.conn n.conns
          { fd, remote := s.getIP, localPort, written := s.pending, wrote := [], sent := [] }
        conns := n.conns + 1 }

/-- The messenger has returned `out`. What it has closed is open on nothing now. -/
def holding (n : Node) (messenger : SMessenger) (out : Option SMsg) : Node :=
  { n with
    bus := { n.bus with mcsock := messenger.mcsock }
    messenger
    held := out.map fun smsg => ⟨smsg, n.opened smsg.socket⟩
    opened := fun x => if (messenger.sock x).kind = .stream then n.opened x else none }

/-- A send on connection `k` has returned `ret` and left `wrote` on it. -/
def sending (n : Node) (k : Nat) (message : Int × CString) (ret : Int) (wrote : CString) : Node :=
  let c := n.conn k
  { n with
    conn := Function.update n.conn k
      { c with
        wrote
        sent := if ret = 0 then c.sent ++ [(message.1, c.localPort, message.2)] else c.sent } }

/-- The peer writes to the connection that is open on `fd`. -/
def hearing (n : Node) (fd : SocketType) (bytes : CString) : Node :=
  match n.opened fd with
  | none => n
  | some k =>
      { n with
        conn := Function.update n.conn k
          { n.conn k with written := (n.conn k).written ++ bytes } }

/-- What the messenger does when asked. On a descriptor that is no connection nothing can
be written. -/
def perform (kernel : Kernel) (sent : Int) (n : Node) : Action → Option Node
  | .connect _ _ fd =>
      let r := n.messenger.connect kernel.client kernel.polled
      if (∀ connection ∈ kernel.client, n.messenger.Handed connection.1 connection.2) ∧
          r.1 = fd then
        some { n.opening kernel.localPort kernel.client with messenger := r.2 }
      else none
  | .multicast msgtag msg =>
      (n.messenger.sendMulticast msgtag msg kernel.accepted).map fun _ => n
  | .unicast msgtag socket msg =>
      match n.opened socket with
      | none =>
          (sendUnicast 0 msgtag msg none []).bind fun (ret, _) =>
            if ret = sent then some n else none
      | some k =>
          (sendUnicast (n.conn k).localPort msgtag msg kernel.accepts (n.conn k).wrote).bind
            fun (ret, wrote) =>
              if ret = sent then some (n.sending k (msgtag, msg) ret wrote) else none

/-- Half a turn of `inLoop`: the messenger is called, or what it has returned is pushed; a
turn of the loop of `recv`, another call of the application, or something sent to one of the
sockets. -/
inductive Event
  | poll (env : RecvEnv) (localPort : Port)
  | push
  | turn (env : StepEnv) (kernel : Kernel)
  | setName (name : CString) (kernel : Kernel)
  | multicast (msgtag : Int) (msg : CString) (kernel : Kernel)
  | send (env : SendEnv) (msgtag : Int) (peer : SBusPeer) (msg : CString) (kernel : Kernel)
  | others (fd : SocketType) (bytes : CString) (datagrams : List Datagram) (closes : Bool)

def step (n : Node) : Event → Option Node
  | .poll env localPort =>
      if n.held.isNone ∧ n.messenger.Offers env then
        (n.messenger.recvWithin n.stack env).map fun r =>
          (n.opening localPort env.listen.accepted).holding r.2 r.1
      else none
  | .push => some { n with held := none, inq := n.inq ++ n.held.toList }
  | .turn env kernel =>
      match n.inq with
      | [] => some n
      | q :: rest => do
          let (peer, bus, actions) ← n.bus.processSMsg env q.smsg
          actions.foldlM (perform kernel env.reply.sent)
            { n with bus, inq := rest, taken := n.taken ++ [(q, peer)] }
  | .setName name kernel =>
      let r := n.bus.setName name
      r.2.foldlM (perform kernel 0) { n with bus := r.1 }
  | .multicast msgtag msg kernel => n.perform kernel 0 (.multicast msgtag msg)
  | .send env msgtag peer msg kernel =>
      let r := n.bus.send env msgtag peer msg
      r.2.2.foldlM (perform kernel env.sent) { n with bus := r.2.1 }
  | .others fd bytes datagrams closes =>
      some { n.hearing fd bytes with
        messenger := n.messenger.setSock fd ((n.messenger.sock fd).receive bytes datagrams closes) }

/-- The messages on their way to the application: those in the queue, then the one that is
to be pushed. -/
def waiting (n : Node) : List Queued := n.inq ++ n.held.toList

/-- The messages of connection `k`: those taken from the queue, then those on their way. -/
def story (n : Node) (k : Nat) : List SMsg :=
  ((n.taken.map Prod.fst ++ n.waiting).filter fun q => q.conn = some k).map Queued.smsg

/-- Those that `recv` has returned. -/
def returned (n : Node) (k : Nat) : List SMsg :=
  (n.taken.filter fun t => t.1.conn = some k ∧ 0 ≤ t.2).map fun t => t.1.smsg

/-- Those on their way. -/
def queued (n : Node) (k : Nat) : List SMsg :=
  (n.waiting.filter fun q => q.conn = some k).map Queued.smsg

/-- The bytes left in the socket of connection `k`, while it is open. -/
def left (n : Node) (k : Nat) : Option CString :=
  if n.opened (n.conn k).fd = some k then some (n.messenger.sock (n.conn k).fd).pending else none

end Node

/-- The messages of a connection: those of the first frames of its bytes, and the report of
its end once it is closed. While it is open, the bytes behind these frames are left. -/
def Conn.Tells (c : Conn) (story : List SMsg) : Option CString → Prop
  | some left => ∃ frames : List Frame, story = frames.map (Frame.toSMsg c.remote c.fd) ∧
      c.written = framing.encodeAll frames ++ left
  | none => ∃ frames : List Frame, story = frames.map (Frame.toSMsg c.remote c.fd) ++
      [SMsg.ofError errcodePeerDisconnected 0 0 c.fd] ∧ framing.encodeAll frames <+: c.written

/-- More is written to an open connection. -/
theorem Conn.Tells.write {c : Conn} {story : List SMsg} {left : CString}
    (tells : c.Tells story (some left)) (bytes : CString) :
    Conn.Tells { c with written := c.written ++ bytes } story (some (left ++ bytes)) := by
  obtain ⟨frames, told, written⟩ := tells
  refine ⟨frames, told, ?_⟩
  rw [written, List.append_assoc]

/-- Some frames are read. -/
theorem Conn.Tells.read {c : Conn} {story : List SMsg} {left left' : CString}
    {frames : List Frame} (tells : c.Tells story (some left))
    (bytes : left = framing.encodeAll frames ++ left') :
    c.Tells (story ++ frames.map (Frame.toSMsg c.remote c.fd)) (some left') := by
  obtain ⟨before, told, written⟩ := tells
  refine ⟨before ++ frames, ?_, ?_⟩
  · rw [told, List.map_append]
  · rw [written, bytes, framing.encodeAll_append, List.append_assoc]

/-- The connection is closed. -/
theorem Conn.Tells.close {c : Conn} {story : List SMsg} {left : CString}
    (tells : c.Tells story (some left)) :
    c.Tells (story ++ [SMsg.ofError errcodePeerDisconnected 0 0 c.fd]) none := by
  obtain ⟨frames, told, written⟩ := tells
  exact ⟨frames, by rw [told], written ▸ List.prefix_append _ _⟩

namespace Node

variable {n n' : Node} {k : Nat} {x fd : SocketType} {out : Option SMsg} {m : SMessenger}
  {port : Port} {event : Event} {kernel : Kernel} {sent : Int} {action : Action}
  {actions : List Action}

/-- The invariant: the numbers given to connections are those below `conns`, a descriptor
is open on a connection as long as its socket is a stream, and every connection tells what
was written to it. -/
structure Told (n : Node) : Prop where
  fresh : ∀ k, n.conns ≤ k → n.story k = []
  opened : ∀ x k, n.opened x = some k → k < n.conns ∧ (n.conn k).fd = x
  streams : ∀ x, (n.messenger.sock x).kind = .stream ↔ n.opened x ≠ none
  numbered : n.messenger.Numbered
  tells : ∀ k < n.conns, (n.conn k).Tells (n.story k) (n.left k)
  remotes : ∀ x k, n.opened x = some k → (n.messenger.sock x).getIP = (n.conn k).remote

theorem Told.left_of_opened (told : n.Told) (open_ : n.opened x = some k) :
    n.left k = some (n.messenger.sock x).pending := by
  obtain ⟨_, rfl⟩ := told.opened x k open_
  exact if_pos open_

theorem Told.closed (told : n.Told) (closed : (n.messenger.sock x).kind ≠ .stream) :
    n.opened x = none :=
  not_not.mp (mt (told.streams x).mpr closed)

/-- The numbers of older connections are not used again. -/
theorem opening_conn (n : Node) (port : Port) (connection : Option (SocketType × Sock))
    (old : k ≠ n.conns) : (n.opening port connection).conn k = n.conn k := by
  cases connection with
  | none => rfl
  | some connection => exact Function.update_of_ne old _ _

theorem opening_opened_ne {s : Sock} (other : x ≠ fd) :
    (n.opening port (some (fd, s))).opened x = n.opened x :=
  Function.update_of_ne other _ _

theorem opening_opened_self (n : Node) (port : Port) (fd : SocketType) (s : Sock) :
    (n.opening port (some (fd, s))).opened fd = some n.conns :=
  Function.update_self _ _ _

theorem opening_conn_self (n : Node) (port : Port) (fd : SocketType) (s : Sock) :
    (n.opening port (some (fd, s))).conn n.conns =
      { fd, remote := s.getIP, localPort := port, written := s.pending, wrote := [], sent := [] } :=
  Function.update_self _ _ _

/-- The descriptors that are open once a new connection is. -/
theorem Told.opened_opening (told : n.Told) {connection : SocketType × Sock}
    (open_ : (n.opening port (some connection)).opened x = some k) :
    (x = connection.1 ∧ k = n.conns) ∨
      (x ≠ connection.1 ∧ n.opened x = some k ∧ k < n.conns ∧ (n.conn k).fd = x) := by
  obtain ⟨fd, s⟩ := connection
  by_cases new : x = fd
  · subst new
    rw [opening_opened_self] at open_
    exact .inl ⟨rfl, (Option.some.inj open_).symm⟩
  · rw [opening_opened_ne new] at open_
    exact .inr ⟨new, open_, told.opened x k open_⟩

/-- A new connection has nothing to tell yet. -/
theorem Told.opening (told : n.Told) (port : Port) {connection : Option (SocketType × Sock)}
    (handed : ∀ c ∈ connection, n.messenger.Handed c.1 c.2)
    (sock : m.sock = (connection.elim n.messenger fun c => n.messenger.setSock c.1 c.2).sock) :
    Told { n.opening port connection with messenger := m } := by
  cases connection with
  | none =>
      refine ⟨told.fresh, told.opened, fun x => sock ▸ told.streams x,
        fun x => sock ▸ told.numbered x, fun k old => ?_, fun x k => sock ▸ told.remotes x k⟩
      have same := told.tells k old
      unfold left at same ⊢
      dsimp only
      rwa [sock]
  | some connection =>
      obtain ⟨fd, s⟩ := connection
      obtain ⟨positive, closed, _, stream⟩ := handed _ rfl
      have unopened : n.opened fd = none := told.closed (by rw [closed]; exact Kind.noConfusion)
      have here : m.sock fd = s := (congrFun sock fd).trans (SMessenger.setSock_self _ _ _)
      have there : ∀ x, x ≠ fd → m.sock x = n.messenger.sock x := fun x other =>
        (congrFun sock x).trans (SMessenger.setSock_of_ne _ _ other)
      refine ⟨fun k new => told.fresh k (Nat.le_of_succ_le new), fun x k open_ => ?_,
        fun x => ?_, fun x open_ => ?_, fun k below => ?_, fun x k open_ => ?_⟩
      · show k < n.conns + 1 ∧ ((n.opening port (some (fd, s))).conn k).fd = x
        have open_ : (n.opening port (some (fd, s))).opened x = some k := open_
        rcases told.opened_opening open_ with ⟨rfl, rfl⟩ | ⟨_, _, old, own⟩
        · exact ⟨Nat.lt_succ_self _, by rw [opening_conn_self]⟩
        · exact ⟨Nat.lt_succ_of_lt old, by rw [opening_conn _ _ _ (Nat.ne_of_lt old), own]⟩
      · show (m.sock x).kind = .stream ↔ (n.opening port (some (fd, s))).opened x ≠ none
        by_cases new : x = fd
        · rw [new, here, opening_opened_self]
          simp [stream]
        · rw [there x new, opening_opened_ne new]
          exact told.streams x
      · by_cases new : x = fd
        · exact new ▸ positive
        · exact told.numbered x (there x new ▸ open_)
      · show ((n.opening port (some (fd, s))).conn k).Tells (n.story k) (left _ k)
        unfold left
        dsimp only
        rcases Nat.lt_succ_iff_lt_or_eq.mp below with old | rfl
        · have tells := told.tells k old
          rw [opening_conn _ _ _ (Nat.ne_of_lt old)]
          by_cases reused : (n.conn k).fd = fd
          · rw [left, reused, unopened, if_neg (by simp)] at tells
            rwa [reused, opening_opened_self, if_neg (by simpa using Nat.ne_of_gt old)]
          · rw [opening_opened_ne reused, there _ reused]
            exact tells
        · rw [opening_conn_self, opening_opened_self, if_pos rfl, here, told.fresh _ le_rfl]
          exact ⟨[], rfl, rfl⟩
      · show (m.sock x).getIP = ((n.opening port (some (fd, s))).conn k).remote
        have open_ : (n.opening port (some (fd, s))).opened x = some k := open_
        rcases told.opened_opening open_ with ⟨rfl, rfl⟩ | ⟨other, before, old, _⟩
        · rw [opening_conn_self, here]
        · rw [opening_conn _ _ _ (Nat.ne_of_lt old), there x other]
          exact told.remotes x k before

/-- The messages that came from the connection on `x`. -/
theorem filter_socket (data : ∀ msg ∈ out, msg.socket = x → msg.error = false) :
    (out.toList.filter fun msg => msg.socket = x) = takenFrom x out := by
  rw [takenFrom]
  apply List.filter_congr
  intro msg mem
  have none := data msg (Option.mem_toList.mp mem)
  simp only [decide_eq_decide]
  exact ⟨fun here => ⟨none here, here⟩, fun both => both.2⟩

theorem waiting_holding (idle : n.held = none) (m : SMessenger) (out : Option SMsg) :
    (n.holding m out).waiting =
      n.waiting ++ out.toList.map fun smsg => ⟨smsg, n.opened smsg.socket⟩ := by
  rw [waiting, waiting, idle]
  cases out <;> simp [holding]

theorem story_holding (idle : n.held = none) (m : SMessenger) (out : Option SMsg) (k : Nat) :
    (n.holding m out).story k =
      n.story k ++ out.toList.filter fun msg => n.opened msg.socket = some k := by
  rw [story, waiting_holding idle, story, show (n.holding m out).taken = n.taken from rfl,
    ← List.append_assoc, List.filter_append, List.map_append, List.filter_map, List.map_map]
  exact congrArg _ (List.map_id _)

/-- Nothing is told of a connection that is closed. -/
theorem Told.silent (told : n.Told) (closed : n.opened (n.conn k).fd ≠ some k)
    (out : Option SMsg) : (out.toList.filter fun msg => n.opened msg.socket = some k) = [] := by
  rw [List.filter_eq_nil_iff]
  intro msg _ tagged
  have tagged : n.opened msg.socket = some k := by simpa using tagged
  exact closed ((told.opened _ k tagged).2 ▸ tagged)

/-- What a call of `recv` returns is told of the connection it is from. -/
theorem Told.holding (told : n.Told) (idle : n.held = none)
    (reads : SMessenger.Reads n.messenger out m)
    (accounts : ∀ x, SMessenger.Accounts x n.messenger out m) : (n.holding m out).Told := by
  have closes : ∀ x k, (n.holding m out).opened x = some k →
      n.opened x = some k ∧ (m.sock x).kind = .stream := by
    intro x k open_
    obtain ⟨stream, open_⟩ := Option.ite_none_right_eq_some.mp open_
    exact ⟨open_, stream⟩
  have from_ : ∀ k x, n.opened x = some k → ∀ y, n.opened y = some k ↔ y = x := by
    intro k x open_ y
    constructor
    · intro also
      exact (told.opened y k also).2.symm.trans (told.opened x k open_).2
    · rintro rfl
      exact open_
  refine ⟨fun k new => ?_, fun x k open_ => told.opened x k (closes x k open_).1, fun x => ?_,
    told.numbered.reads reads, fun k below => ?_, fun x k open_ => ?_⟩
  · rw [story_holding idle, told.fresh k new, List.nil_append, List.filter_eq_nil_iff]
    intro msg _ tagged
    exact Nat.not_lt.mpr new (told.opened _ k (by simpa using tagged)).1
  · show (m.sock x).kind = .stream ↔ (if (m.sock x).kind = .stream then n.opened x else none) ≠ none
    by_cases stream : (m.sock x).kind = .stream
    · rw [if_pos stream]
      exact iff_of_true stream ((told.streams x).mp (reads x stream).1)
    · rw [if_neg stream]
      exact iff_of_false stream (by simp)
  · show (n.conn k).Tells _ _
    have tells := told.tells k below
    rw [story_holding idle]
    by_cases open_ : n.opened (n.conn k).fd = some k
    · have stream := (told.streams (n.conn k).fd).mpr (by rw [open_]; simp)
      rw [left, if_pos open_] at tells
      have own : (out.toList.filter fun msg => n.opened msg.socket = some k) =
          out.toList.filter fun msg => msg.socket = (n.conn k).fd :=
        List.filter_congr fun msg _ => by simp only [from_ k _ open_]
      rw [own]
      rcases accounts (n.conn k).fd stream with ⟨stays, data⟩ | ⟨ends, reported⟩
      · obtain ⟨_, _, frames, taken, bytes⟩ := reads (n.conn k).fd stays
        have open' : (n.holding m out).left k = some (m.sock (n.conn k).fd).pending :=
          if_pos ((if_pos stays).trans open_)
        rw [filter_socket data, taken, told.remotes _ k open_, open']
        exact tells.read bytes
      · have closed : (n.holding m out).left k = none := if_neg fun open' =>
          ends (closes _ k open').2
        have report : (out.toList.filter fun msg => msg.socket = (n.conn k).fd) =
            [SMsg.ofError errcodePeerDisconnected 0 0 (n.conn k).fd] := by
          rw [reported]
          exact List.filter_eq_self.mpr (by simp [SMsg.ofError])
        rw [report, closed]
        exact tells.close
    · have nothing := told.silent open_ out
      have closed : (n.holding m out).left k = none := if_neg fun open' =>
        open_ (closes _ k open').1
      rw [left, if_neg open_] at tells
      rwa [nothing, List.append_nil, closed]
  · obtain ⟨open', stream⟩ := closes x k open_
    exact (reads x stream).2.1.trans (told.remotes x k open')

theorem hearing_conn (n : Node) (fd : SocketType) (bytes : CString) (k : Nat) :
    (n.hearing fd bytes).conn k =
      if n.opened fd = some k then
        { n.conn k with written := (n.conn k).written ++ bytes }
      else n.conn k := by
  unfold hearing
  split
  case h_1 closed => rw [if_neg (by simp [closed])]
  case h_2 c open_ =>
    by_cases own : k = c
    · subst own
      rw [if_pos open_]
      exact Function.update_self _ _ _
    · rw [if_neg (by simpa [open_] using Ne.symm own)]
      exact Function.update_of_ne own _ _

theorem hearing_rest (n : Node) (fd : SocketType) (bytes : CString) :
    (n.hearing fd bytes).opened = n.opened ∧ (n.hearing fd bytes).conns = n.conns ∧
      (n.hearing fd bytes).story = n.story := by
  unfold hearing
  split <;> exact ⟨rfl, rfl, rfl⟩

/-- The peer writes to a connection, or something is sent to another socket. -/
theorem Told.hearing (told : n.Told) (fd : SocketType) (bytes : CString)
    (datagrams : List Datagram) (closes : Bool) :
    Told { n.hearing fd bytes with
      messenger := n.messenger.setSock fd
        ((n.messenger.sock fd).receive bytes datagrams closes) } := by
  obtain ⟨opened, conns, story⟩ := n.hearing_rest fd bytes
  have conn := n.hearing_conn fd bytes
  have here := n.messenger.setSock_self fd ((n.messenger.sock fd).receive bytes datagrams closes)
  have there : ∀ x, x ≠ fd → (n.messenger.setSock fd
      ((n.messenger.sock fd).receive bytes datagrams closes)).sock x = n.messenger.sock x :=
    fun x other => SMessenger.setSock_of_ne _ _ other
  have ends : ∀ k, ((n.hearing fd bytes).conn k).fd = (n.conn k).fd ∧
      ((n.hearing fd bytes).conn k).remote = (n.conn k).remote := by
    intro k
    rw [conn]
    split <;> exact ⟨rfl, rfl⟩
  refine ⟨fun k new => ?_, fun x k open_ => ?_, fun x => ?_, fun x stream => ?_,
    fun k old => ?_, fun x k open_ => ?_⟩
  · exact (congrFun story k).trans (told.fresh k (conns ▸ new))
  · rw [opened] at open_
    show k < (n.hearing fd bytes).conns ∧ ((n.hearing fd bytes).conn k).fd = x
    rw [conns, (ends k).1]
    exact told.opened x k open_
  · show _ ↔ (n.hearing fd bytes).opened x ≠ none
    rw [opened, ← told.streams x]
    by_cases own : x = fd
    · rw [own, here, Sock.kind_receive]
    · rw [there x own]
  · apply told.numbered x
    by_cases own : x = fd
    · rwa [own, here, Sock.kind_receive, ← own] at stream
    · rwa [there x own] at stream
  · have tells := told.tells k (conns ▸ old)
    show ((n.hearing fd bytes).conn k).Tells ((n.hearing fd bytes).story k) (left _ k)
    rw [congrFun story k]
    unfold left at tells ⊢
    dsimp only
    rw [opened, (ends k).1, conn]
    by_cases own : n.opened fd = some k
    · have fd_ := (told.opened fd k own).2
      have stream := (told.streams fd).mpr (by simp [own])
      rw [fd_, if_pos own] at tells
      rw [if_pos own, fd_, if_pos own, here]
      have more : ((n.messenger.sock fd).receive bytes datagrams closes).pending =
          (n.messenger.sock fd).pending ++ bytes := by
        cases eq : n.messenger.sock fd with
        | stream wire buffer eof remote => simp [Sock.receive, Sock.pending]
        | dgram wire queue =>
            rw [eq] at stream
            cases stream
        | closed =>
            rw [eq] at stream
            cases stream
      rw [more]
      exact tells.write bytes
    · rw [if_neg own]
      by_cases open_ : n.opened (n.conn k).fd = some k
      · have other : (n.conn k).fd ≠ fd := fun same => own (same ▸ open_)
        rwa [there _ other]
      · rw [if_neg open_] at tells ⊢
        exact tells
  · rw [opened] at open_
    show _ = ((n.hearing fd bytes).conn k).remote
    rw [(ends k).2, ← told.remotes x k open_]
    by_cases own : x = fd
    · rw [own, here]
      cases n.messenger.sock fd <;> rfl
    · rw [there x own]

/-- Nothing is written by a peer, opened or closed, and no message is queued. -/
theorem Told.same (told : n.Told) (sock : n'.messenger.sock = n.messenger.sock)
    (opened : n'.opened = n.opened) (conns : n'.conns = n.conns)
    (story : ∀ k, n'.story k = n.story k)
    (conn : ∀ k, (n'.conn k).fd = (n.conn k).fd ∧ (n'.conn k).remote = (n.conn k).remote ∧
      (n'.conn k).written = (n.conn k).written) : n'.Told := by
  refine ⟨fun k new => ?_, fun x k open_ => ?_, fun x => ?_, fun x => sock ▸ told.numbered x,
    fun k old => ?_, fun x k open_ => ?_⟩
  · rw [story]
    exact told.fresh k (conns ▸ new)
  · rw [opened] at open_
    rw [conns, (conn k).1]
    exact told.opened x k open_
  · rw [sock, opened]
    exact told.streams x
  · have tells := told.tells k (conns ▸ old)
    have left : n'.left k = n.left k := by
      rw [Node.left, Node.left, opened, sock, (conn k).1]
    rw [story, left]
    cases left_ : n.left k with
    | none =>
        rw [left_] at tells
        unfold Conn.Tells at tells ⊢
        rwa [(conn k).1, (conn k).2.1, (conn k).2.2]
    | some bytes =>
        rw [left_] at tells
        unfold Conn.Tells at tells ⊢
        rwa [(conn k).1, (conn k).2.1, (conn k).2.2]
  · rw [opened] at open_
    rw [sock, (conn k).2.1]
    exact told.remotes x k open_

theorem sending_conn_self (n : Node) (k : Nat) (message : Int × CString) (ret : Int)
    (wrote : CString) : (n.sending k message ret wrote).conn k =
      { n.conn k with
        wrote
        sent := if ret = 0 then
            (n.conn k).sent ++ [(message.1, (n.conn k).localPort, message.2)]
          else (n.conn k).sent } :=
  Function.update_self _ _ _

theorem sending_conn_ne (n : Node) {j k : Nat} (other : j ≠ k) (message : Int × CString)
    (ret : Int) (wrote : CString) : (n.sending k message ret wrote).conn j = n.conn j :=
  Function.update_of_ne other _ _

theorem Told.sending (told : n.Told) (k : Nat) (message : Int × CString) (ret : Int)
    (wrote : CString) : (n.sending k message ret wrote).Told := by
  refine told.same rfl rfl rfl (fun _ => rfl) fun j => ?_
  by_cases here : j = k
  · rw [here, sending_conn_self]
    exact ⟨rfl, rfl, rfl⟩
  · rw [sending_conn_ne n here]
    exact ⟨rfl, rfl, rfl⟩

/-- A call of the messenger is made when nothing is to be pushed, and its stack is enough. -/
theorem poll_cases {env : RecvEnv} (taken : n.step (.poll env port) = some n') :
    n.held = none ∧ n.messenger.Offers env ∧ SMessenger.Fits n.stack n.messenger env ∧
      n' = (n.opening port env.listen.accepted).holding (n.messenger.recv env).2
        (n.messenger.recv env).1 := by
  obtain ⟨⟨idle, offers⟩, taken⟩ := Option.ite_none_right_eq_some.mp taken
  obtain ⟨⟨out, m⟩, returns, rfl⟩ := Option.map_eq_some_iff.mp taken
  obtain ⟨fits, same⟩ := SMessenger.recvWithin_eq_some_iff.mp returns
  rw [same]
  exact ⟨Option.isNone_iff_eq_none.mp idle, offers, fits, rfl⟩

theorem push_waiting (n : Node) :
    ({ n with held := none, inq := n.inq ++ n.held.toList } : Node).waiting = n.waiting :=
  List.append_nil _

theorem push_story (n : Node) (k : Nat) :
    ({ n with held := none, inq := n.inq ++ n.held.toList } : Node).story k = n.story k := by
  rw [story, push_waiting, story]

/-- What the messenger may do when asked: nothing that is seen here, a connection, or a
send on one. -/
theorem perform_cases (call : n.perform kernel sent action = some n') :
    n' = n ∨
      (∃ ip port fd, action = .connect ip port fd ∧
        (∀ connection ∈ kernel.client, n.messenger.Handed connection.1 connection.2) ∧
        n' = { n.opening kernel.localPort kernel.client with
          messenger := (n.messenger.connect kernel.client kernel.polled).2 }) ∨
      ∃ msgtag socket msg k ret wrote, action = .unicast msgtag socket msg ∧
        sendUnicast (n.conn k).localPort msgtag msg kernel.accepts (n.conn k).wrote =
          some (ret, wrote) ∧
        n' = n.sending k (msgtag, msg) ret wrote := by
  cases action with
  | connect ip port fd =>
      obtain ⟨⟨handed, _⟩, rfl⟩ := Option.ite_some_none_eq_some.mp call
      exact .inr (.inl ⟨ip, port, fd, rfl, handed, rfl⟩)
  | multicast msgtag msg =>
      obtain ⟨_, _, rfl⟩ := Option.map_eq_some_iff.mp call
      exact .inl rfl
  | unicast msgtag socket msg =>
      rw [perform] at call
      split at call
      case h_1 closed =>
        obtain ⟨_, _, call⟩ := Option.bind_eq_some_iff.mp call
        obtain ⟨_, rfl⟩ := Option.ite_some_none_eq_some.mp call
        exact .inl rfl
      case h_2 k open_ =>
        obtain ⟨⟨ret, wrote⟩, written, call⟩ := Option.bind_eq_some_iff.mp call
        obtain ⟨_, rfl⟩ := Option.ite_some_none_eq_some.mp call
        exact .inr (.inr ⟨msgtag, socket, msg, k, ret, wrote, rfl, written, rfl⟩)

/-- A turn of the loop of `recv` waits for a message, or takes one and does what
`processSMsg` asks for. -/
theorem turn_cases {env : StepEnv} (taken : n.step (.turn env kernel) = some n') :
    n' = n ∨ ∃ q rest peer bus actions, n.inq = q :: rest ∧
      n.bus.processSMsg env q.smsg = some (peer, bus, actions) ∧
      actions.foldlM (perform kernel env.reply.sent)
        { n with bus, inq := rest, taken := n.taken ++ [(q, peer)] } = some n' := by
  rw [step] at taken
  split at taken
  case h_1 idle => exact .inl (Option.some.inj taken).symm
  case h_2 q rest front =>
    obtain ⟨⟨peer, bus, actions⟩, processed, taken⟩ := Option.bind_eq_some_iff.mp taken
    exact .inr ⟨q, rest, peer, bus, actions, front, processed, taken⟩

theorem multicast_same {msgtag : Int} {msg : CString}
    (taken : n.step (.multicast msgtag msg kernel) = some n') : n' = n := by
  obtain ⟨_, _, rfl⟩ := Option.map_eq_some_iff.mp taken
  rfl

theorem Told.perform (told : n.Told) (call : n.perform kernel sent action = some n') :
    n'.Told := by
  rcases perform_cases call with rfl | ⟨_, _, _, _, handed, rfl⟩ |
    ⟨_, _, _, k, ret, wrote, _, _, rfl⟩
  · exact told
  · exact told.opening _ handed (Ledger.connect_sock _ _ _)
  · exact told.sending k _ ret wrote

theorem Told.performs (told : n.Told)
    (call : actions.foldlM (Node.perform kernel sent) n = some n') : n'.Told :=
  (run_det_iff.mpr call).invariant told fun _ _ _ => Told.perform

theorem Told.step (told : n.Told) (taken : n.step event = some n') : n'.Told := by
  cases event with
  | poll env localPort =>
      obtain ⟨idle, offers, _, rfl⟩ := poll_cases taken
      have opening := told.opening localPort offers.1
        (Ledger.listenConn_sock n.messenger env.listen)
      have idle' : (n.opening localPort env.listen.accepted).held = none := by
        rw [← idle]
        cases env.listen.accepted <;> rfl
      exact opening.holding idle' (SMessenger.recv_reads env opening.numbered)
        (SMessenger.recv_accounts offers)
  | push =>
      obtain rfl := Option.some.inj taken
      exact told.same rfl rfl rfl n.push_story fun _ => ⟨rfl, rfl, rfl⟩
  | turn env kernel =>
      rcases turn_cases taken with rfl | ⟨q, rest, peer, bus, actions, front, _, taken⟩
      · exact told
      · have popped : Told { n with bus, inq := rest, taken := n.taken ++ [(q, peer)] } := by
          refine told.same rfl rfl rfl (fun k => ?_) fun _ => ⟨rfl, rfl, rfl⟩
          rw [story, story, waiting, waiting, front, List.map_append, List.append_assoc]
          rfl
        exact popped.performs taken
  | setName name kernel =>
      have named : Told { n with bus := (n.bus.setName name).1 } :=
        told.same rfl rfl rfl (fun _ => rfl) fun _ => ⟨rfl, rfl, rfl⟩
      exact named.performs taken
  | multicast msgtag msg kernel => exact multicast_same taken ▸ told
  | send env msgtag peer msg kernel =>
      have asked : Told { n with bus := (n.bus.send env msgtag peer msg).2.1 } :=
        told.same rfl rfl rfl (fun _ => rfl) fun _ => ⟨rfl, rfl, rfl⟩
      exact asked.performs taken
  | others fd bytes datagrams closes =>
      obtain rfl := Option.some.inj taken
      exact told.hearing fd bytes datagrams closes

theorem told_init {ip : IP} {servsock mcsock : SocketType} {stack : Nat}
    (made : init ip servsock port mcsock stack = some n) : n.Told := by
  obtain ⟨m, built, rfl⟩ := Option.map_eq_some_iff.mp made
  have none : ∀ x, (m.sock x).kind ≠ .stream := by
    obtain ⟨_, built⟩ := Option.ite_none_left_eq_some.mp built
    obtain ⟨_, built⟩ := Option.ite_none_left_eq_some.mp built
    obtain rfl := Option.some.inj built
    intro x
    show (Function.update (fun _ => Sock.closed) mcsock (.dgram [] []) x).kind ≠ _
    rw [Function.update_apply]
    split <;> exact Kind.noConfusion
  refine ⟨fun _ _ => rfl, fun x k open_ => ?_, fun x => iff_of_false (none x) (fun h => h rfl),
    fun x stream => absurd stream (none x), fun k old => absurd old (Nat.not_lt_zero k),
    fun x k open_ => ?_⟩
  · cases open_
  · cases open_

/-- What the messenger is asked for changes nothing of the bus. -/
theorem perform_keeps (call : n.perform kernel sent action = some n') :
    n'.bus = n.bus ∧ n'.taken = n.taken := by
  rcases perform_cases call with rfl | ⟨_, _, _, _, _, rfl⟩ | ⟨_, _, _, _, _, _, _, _, rfl⟩
  · exact ⟨rfl, rfl⟩
  · cases kernel.client <;> exact ⟨rfl, rfl⟩
  · exact ⟨rfl, rfl⟩

theorem performs_keeps (call : actions.foldlM (Node.perform kernel sent) n = some n') :
    n'.bus = n.bus ∧ n'.taken = n.taken :=
  (run_det_iff.mpr call).invariant
    (I := fun b => b.bus = n.bus ∧ b.taken = n.taken) ⟨rfl, rfl⟩
    fun _ _ _ same call => by
      obtain ⟨bus, taken⟩ := perform_keeps call
      exact ⟨bus.trans same.1, taken.trans same.2⟩

/-- The bus stays at its address, its contacts have ids, and of the messages taken from
the queue those for the application were given an id. -/
structure Handled (ip : IP) (port : Port) (n : Node) : Prop where
  placed : n.bus.serverIP = ip ∧ n.bus.serverPort = port
  sound : IndexesSound n.bus.scontacts n.bus.scontacts.heap.live
  counted : IdsCounted n.bus.scontacts
  taken : ∀ t ∈ n.taken, 0 ≤ t.2 ↔ t.1.smsg.Deliverable ip port

variable {ip : IP}

theorem Handled.performs (handled : n.Handled ip port)
    (call : actions.foldlM (Node.perform kernel sent) n = some n') : n'.Handled ip port := by
  obtain ⟨bus, taken⟩ := performs_keeps call
  refine ⟨?_, ?_, ?_, ?_⟩
  · rw [bus]
    exact handled.placed
  · rw [bus]
    exact handled.sound
  · rw [bus]
    exact handled.counted
  · rw [taken]
    exact handled.taken

theorem Handled.step (handled : n.Handled ip port) (call : n.step event = some n') :
    n'.Handled ip port := by
  obtain ⟨placed, sound, counted, taken⟩ := handled
  cases event with
  | poll env localPort =>
      obtain ⟨_, _, _, rfl⟩ := poll_cases call
      cases env.listen.accepted <;> exact ⟨placed, sound, counted, taken⟩
  | push =>
      obtain rfl := Option.some.inj call
      exact ⟨placed, sound, counted, taken⟩
  | turn env kernel =>
      rcases turn_cases call with rfl | ⟨q, rest, peer, bus, actions, _, processed, call⟩
      · exact ⟨placed, sound, counted, taken⟩
      · obtain ⟨changes, same⟩ := SBus.processSMsg_any_changes sound processed
        have iff := SBus.processSMsg_nonneg_iff sound counted processed
        rw [placed.1, placed.2] at iff
        have popped : Handled ip port
            { n with bus, inq := rest, taken := n.taken ++ [(q, peer)] } := by
          refine ⟨?_, sound.changes changes, counted.changes sound changes, fun t mem => ?_⟩
          · rw [same]
            exact placed
          · rcases List.mem_append.mp mem with old | new
            · exact taken t old
            · obtain rfl := List.mem_singleton.mp new
              exact iff
        exact popped.performs call
  | setName name kernel =>
      have named : Handled ip port { n with bus := (n.bus.setName name).1 } :=
        ⟨placed, sound, counted, taken⟩
      exact named.performs call
  | multicast msgtag msg kernel => exact multicast_same call ▸ ⟨placed, sound, counted, taken⟩
  | send env msgtag peer msg kernel =>
      rcases asked : n.bus.send env msgtag peer msg with ⟨ret, bus, actions⟩
      obtain ⟨changes, same⟩ := SBus.send_changes (fun _ _ _ => True) (fun _ _ _ _ => trivial)
        asked
      rw [Node.step, asked] at call
      have asked : Handled ip port { n with bus } := by
        refine ⟨?_, sound.changes changes, counted.changes sound changes, taken⟩
        rw [same]
        exact placed
      exact asked.performs call
  | others fd bytes datagrams closes =>
      obtain rfl := Option.some.inj call
      unfold hearing
      split <;> exact ⟨placed, sound, counted, taken⟩

theorem handled_init {servsock mcsock : SocketType} {stack : Nat}
    (made : init ip servsock port mcsock stack = some n) : n.Handled ip port := by
  obtain ⟨m, built, rfl⟩ := Option.map_eq_some_iff.mp made
  obtain ⟨_, built⟩ := Option.ite_none_left_eq_some.mp built
  obtain ⟨_, built⟩ := Option.ite_none_left_eq_some.mp built
  obtain rfl := Option.some.inj built
  exact ⟨⟨rfl, rfl⟩, indexesSound_empty, idsCounted_empty, fun t mem => by cases mem⟩

/-- What `recv` has returned of a connection, and will return of what is on its way. -/
theorem Handled.returned (handled : n.Handled ip port) (k : Nat) :
    n.returned k ++ (n.queued k).filter (SMsg.Deliverable ip port) =
      (n.story k).filter (SMsg.Deliverable ip port) := by
  have taken : n.returned k = (((n.taken.map Prod.fst).filter fun q => q.conn = some k).map
      Queued.smsg).filter (SMsg.Deliverable ip port) := by
    rw [Node.returned, List.filter_map, List.filter_filter, List.filter_map, List.map_map]
    apply congrArg
    apply List.filter_congr
    intro t mem
    have iff := handled.taken t mem
    simp only [Function.comp_apply, Bool.decide_and, decide_eq_decide.mpr iff]
    exact Bool.and_comm _ _
  rw [story, List.filter_append, List.map_append, List.filter_append, taken]
  rfl

/-- The frames that were read of a connection. -/
theorem Told.frames (told : n.Told) (handled : n.Handled ip port) (old : k < n.conns) :
    ∃ frames : List Frame, framing.encodeAll frames <+: (n.conn k).written ∧
      n.story k = frames.map (Frame.toSMsg (n.conn k).remote (n.conn k).fd) ++
        (if n.opened (n.conn k).fd = some k then []
          else [SMsg.ofError errcodePeerDisconnected 0 0 (n.conn k).fd]) ∧
      (n.opened (n.conn k).fd = some k → (n.conn k).written =
        framing.encodeAll frames ++ (n.messenger.sock (n.conn k).fd).pending) ∧
      n.returned k ++ (n.queued k).filter (SMsg.Deliverable ip port) =
        (frames.map (Frame.toSMsg (n.conn k).remote (n.conn k).fd)).filter
          (SMsg.Deliverable ip port) := by
  have tells := told.tells k old
  by_cases open_ : n.opened (n.conn k).fd = some k
  · rw [left, if_pos open_] at tells
    obtain ⟨frames, story, written⟩ := tells
    refine ⟨frames, written ▸ List.prefix_append _ _, ?_, fun _ => written, ?_⟩
    · rw [story, if_pos open_, List.append_nil]
    · rw [handled.returned, story]
  · rw [left, if_neg open_] at tells
    obtain ⟨frames, story, part⟩ := tells
    refine ⟨frames, part, ?_, fun open' => absurd open' open_, ?_⟩
    · rw [story, if_neg open_]
    · have report : [SMsg.ofError errcodePeerDisconnected 0 0 (n.conn k).fd].filter
          (SMsg.Deliverable ip port) = [] := rfl
      rw [handled.returned, story, List.filter_append, report, List.append_nil]

/-- In every run, for every connection that was ever made, open or closed: what the messenger
has returned of it, to be pushed, queued or taken from the queue, are the messages of the
first frames its peer has written, in their order, each once, and then the report of its
end, once, if it is closed. While it is open, the bytes behind these frames are those in its
socket. And `recv` has returned, or will return of what is on its way, those of these
messages that are neither searches for a name nor show the address of the instance. -/
theorem story_of_run {servsock mcsock : SocketType} {stack : Nat} {start : Node}
    {events : List Event} (made : init ip servsock port mcsock stack = some start)
    (run : Run (Det step) start events n) (k : Nat) (old : k < n.conns) :
    ∃ frames : List Frame, frames <+: framing.parse (n.conn k).written ∧
      n.story k = frames.map (Frame.toSMsg (n.conn k).remote (n.conn k).fd) ++
        (if n.opened (n.conn k).fd = some k then []
          else [SMsg.ofError errcodePeerDisconnected 0 0 (n.conn k).fd]) ∧
      (n.opened (n.conn k).fd = some k → (n.conn k).written =
        framing.encodeAll frames ++ (n.messenger.sock (n.conn k).fd).pending) ∧
      n.returned k ++ (n.queued k).filter (SMsg.Deliverable ip port) =
        (frames.map (Frame.toSMsg (n.conn k).remote (n.conn k).fd)).filter
          (SMsg.Deliverable ip port) := by
  have told : n.Told := run.invariant (told_init made) fun _ _ _ => Told.step
  have handled : n.Handled ip port := run.invariant (handled_init made) fun _ _ _ => Handled.step
  obtain ⟨frames, ⟨rest, written⟩, story, bytes, returned⟩ := told.frames handled old
  refine ⟨frames, ?_, story, bytes, returned⟩
  rw [← written, framing.parse_encodeAll_append framing_exact]
  exact List.prefix_append _ _

/-- The stack a thread gets when nothing else is asked for. -/
def threadStack : Nat := 8 * 1024 * 1024

/-- A peer connects, writes a message and part of another one, and closes; its descriptor
is given to the next one who connects. -/
def hangsUp : List Event :=
  [.poll ⟨.incoming (some (5, .stream [] [] false 2)), []⟩ 10,
   .others 5 [0, 7, 0, 9, 0, 0, 0, 1, 65, 0, 8] [] true,
   .poll ⟨.idle, [[⟨0, fun _ => 0, 0, 0, none⟩, ⟨POLLIN, fun _ => 11, 0, 0, none⟩]]⟩ 0, .push,
   .turn ⟨⟨10, 0, []⟩, ⟨10, 1, []⟩, ⟨⟨10, 2, []⟩, -1, 0⟩⟩ ⟨none, 0, true, none, true⟩,
   .poll ⟨.idle, [[⟨0, fun _ => 0, 0, 0, none⟩, ⟨POLLHUP, fun _ => 0, 0, 0, none⟩]]⟩ 0, .push,
   .poll ⟨.incoming (some (5, .stream [] [] false 3)), []⟩ 10]

theorem story_of_run_hangs_up :
    ∃ start n, init 1 3 10 4 threadStack = some start ∧
      Run (Det step) start hangsUp n ∧
      n.opened 5 = some 1 ∧ (n.returned 0).length = 1 ∧ ∃ frames : List Frame,
        n.story 0 = frames.map (Frame.toSMsg (n.conn 0).remote (n.conn 0).fd) ++
          (if n.opened (n.conn 0).fd = some 0 then []
            else [SMsg.ofError errcodePeerDisconnected 0 0 (n.conn 0).fd]) := by
  obtain ⟨start, n, made, run, old, reused, one⟩ : ∃ start n,
      init 1 3 10 4 threadStack = some start ∧
        Run (Det step) start hangsUp n ∧ 0 < n.conns ∧ n.opened 5 = some 1 ∧
        (n.returned 0).length = 1 :=
    ⟨_, _, rfl, run_det_iff.mpr rfl, by decide +kernel, by decide +kernel, by decide +kernel⟩
  obtain ⟨frames, _, story, _⟩ := story_of_run made run 0 old
  exact ⟨start, n, made, run, reused, one, frames, story⟩

end Node

end LibSBus
