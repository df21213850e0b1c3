import LibSBus.Lib.Parsing
import LibSBus.SMessenger.Streams
import LibSBus.SMessenger.Registered

/-!
What becomes of the bytes of a connection, whatever they are and whoever wrote them.
As long as a connection is open, no byte of it is lost, read twice or read into the
message of another one: the messages `recv` has returned for it, written as frames
again, and the bytes that are left are what was written to it. So its messages are the
first frames of its bytes, in whatever pieces these came and whenever `recv` was called.
-/

namespace LibSBus

open Lib

theorem packhdr_unpackhdr {head : CString} (whole : head.length = hdrlen) :
    packhdr (unpackhdr head).1 (unpackhdr head).2.1 (unpackhdr head).2.2 = head := by
  have digits : ∀ {w : Nat} (word : CString), 256 ^ word.length = 2 ^ w →
      bigEndian word.length (BitVec.ofNat w (fromBigEndian word)).toNat = word := by
    intro w word width
    have small := fromBigEndian_lt word
    rw [BitVec.toNat_ofNat, ← width, Nat.mod_eq_of_lt small, bigEndian_fromBigEndian]
  have code : (head.take 2).length = 2 := by
    rw [List.length_take, whole]
    rfl
  have port : ((head.drop 2).take 2).length = 2 := by
    rw [List.length_take, List.length_drop, whole]
    rfl
  have length : (head.drop 4).length = 4 := by
    rw [List.length_drop, whole]
    rfl
  have first := digits (w := 16) (head.take 2) (by rw [code]; rfl)
  have second := digits (w := 16) ((head.drop 2).take 2) (by rw [port]; rfl)
  have third := digits (w := 32) (head.drop 4) (by rw [length]; rfl)
  rw [code] at first
  rw [port] at second
  rw [length] at third
  rw [packhdr, unpackhdr]
  dsimp only
  rw [BitVec.ofInt_toInt, BitVec.ofInt_toInt, first, second, third, List.append_assoc]
  have rest : (head.drop 2).take 2 ++ head.drop 4 = head.drop 2 := by
    have parts := List.take_append_drop 2 (head.drop 2)
    rwa [List.drop_drop] at parts
  rw [rest, List.take_append_drop]

/-- `scan` takes nothing for a frame but what `send` writes as one. -/
theorem framing_exact : framing.Exact := by
  intro buffer f size found
  have found : scan buffer = .frame f size := found
  by_cases long : hdrlen ≤ buffer.length
  · by_cases small : 0 ≤ datasize buffer ∧ datasize buffer ≤ maxDatalen
    · by_cases whole : hdrlen + (datasize buffer).toNat ≤ buffer.length
      · obtain ⟨g, same, tag, port, data⟩ := scan_frame small whole
        obtain ⟨rfl, rfl⟩ := Scan.frame.inj (same.symm.trans found)
        have length : ((g.data.length : Nat) : Int) = datasize buffer := by
          rw [data, List.length_take, List.length_drop]
          omega
        have head := packhdr_unpackhdr (List.length_take_of_le long)
        have encoded : g.encode = buffer.take (hdrlen + (datasize buffer).toNat) := by
          rw [Frame.encode, tag, port, length, datasize, head, ← datasize, data, List.take_add]
        show g.encode <+: buffer
        rw [encoded]
        exact List.take_prefix _ _
      · rw [scan_incomplete long small (Nat.lt_of_not_le whole)] at found
        cases found
    · rw [scan_invalid long small] at found
      cases found
  · have short : scan buffer = .incomplete := if_pos (Nat.lt_of_not_le long)
    rw [short] at found
    cases found

/-- The messages that came from `x`. -/
def takenFrom (x : SocketType) (out : Option SMsg) : List SMsg :=
  out.toList.filter fun msg => msg.error = false ∧ msg.socket = x

/-- What becomes of the socket with number `x` while `out` is read: if it is an open
connection afterwards, it was one before, and the messages read from it were in front of
what is left. -/
def Sock.ReadTo (x : SocketType) (out : Option SMsg) (s t : Sock) : Prop :=
  t.kind = .stream → s.kind = .stream ∧ t.getIP = s.getIP ∧
    ∃ frames : List Frame, takenFrom x out = frames.map (Frame.toSMsg s.getIP x) ∧
      s.pending = framing.encodeAll frames ++ t.pending

namespace Sock

variable {x : SocketType} {out : Option SMsg} {s t u : Sock}

theorem readTo_of_closed (closed : t.kind ≠ .stream) : ReadTo x out s t :=
  fun stream => absurd stream closed

/-- Where nothing was read, bytes may arrive. -/
theorem readTo_arrive (none : takenFrom x out = []) (n : Nat) : ReadTo x out s (s.arrive n) := by
  intro stream
  rw [kind_arrive] at stream
  refine ⟨stream, ?_, [], none, ?_⟩
  · cases s <;> rfl
  · rw [pending_arrive]
    rfl

theorem readTo_refl (none : takenFrom x out = []) : ReadTo x out s s := by
  have same := readTo_arrive (s := s) none 0
  rwa [arrive_zero] at same

theorem ReadTo.trans (first : ReadTo x none s t) (second : ReadTo x out t u) :
    ReadTo x out s u := by
  intro stream
  obtain ⟨open_, ip, frames, taken, bytes⟩ := second stream
  obtain ⟨open', ip', frames', taken', bytes'⟩ := first open_
  obtain rfl := List.map_eq_nil_iff.mp taken'.symm
  refine ⟨open', ip.trans ip', frames, ip' ▸ taken, ?_⟩
  rw [bytes', bytes]
  rfl

end Sock

/-- The message `recv` makes of what `nextMsg` returns. -/
def Next.toSMsg (x : SocketType) : Next → Option SMsg
  | .message msgtag ip port msg => some { msgtag, ip, port, socket := x, msg, error := false }
  | _ => none

theorem Next.takenFrom_ne {x fd : SocketType} (next : Next) (other : x ≠ fd) :
    takenFrom x (next.toSMsg fd) = [] := by
  cases next <;> simp [takenFrom, Next.toSMsg, Ne.symm other]

/-- `nextMsg` takes one frame off a stream, or none. -/
theorem nextMsg_readTo (x : SocketType) (s : Sock) (late later : Nat) :
    Sock.ReadTo x ((nextMsg maxDatalen s late later).1.toSMsg x) s
      (nextMsg maxDatalen s late later).2 := by
  cases s with
  | dgram wire queue =>
      apply Sock.readTo_of_closed
      rw [nextMsg_kind]
      exact Kind.noConfusion
  | closed =>
      apply Sock.readTo_of_closed
      rw [nextMsg_kind]
      exact Kind.noConfusion
  | stream wire buffer eof remote =>
      by_cases empty : buffer = []
      · subst empty
        rw [nextMsg_stream_nil]
        split <;> exact Sock.readTo_refl rfl
      · rw [nextMsg_stream empty]
        dsimp only
        split
        case isTrue short => exact Sock.readTo_refl rfl
        case isFalse long =>
          split
          case h_1 invalid => exact Sock.readTo_refl rfl
          case h_2 incomplete => exact Sock.readTo_arrive rfl late
          case h_3 f size found =>
            obtain ⟨behind, bytes⟩ : f.encode <+: buffer ++ wire.take late :=
              framing_exact _ f size found
            have bytes : f.encode ++ behind = buffer ++ wire.take late := bytes
            have length : size = f.encode.length := by
              rw [← bytes, scan_encode] at found
              exact (Scan.frame.inj found).2.symm
            intro _
            refine ⟨rfl, rfl, [f], by simp [takenFrom, Next.toSMsg, Frame.toSMsg, Sock.getIP], ?_⟩
            have left : (((Sock.stream wire buffer eof remote).arrive late).arrive later).consume
                size = .stream ((wire.drop late).drop later)
                  (behind ++ (wire.drop late).take later) eof remote := by
              rw [Sock.arrive, Sock.arrive, Sock.consume, ← bytes, length, List.append_assoc,
                List.drop_left]
            have all : buffer ++ wire = f.encode ++ behind ++ wire.drop late := by
              rw [bytes, List.append_assoc, List.take_append_drop]
            have one : framing.encodeAll [f] = f.encode := List.append_nil _
            rw [left, one, Sock.pending, Sock.pending, all]
            simp only [List.append_assoc, List.take_append_drop]

namespace SMessenger

variable {m m' m'' : SMessenger} {out : Option SMsg} {fd : SocketType}

/-- What becomes of all sockets. -/
def Reads (m : SMessenger) (out : Option SMsg) (m' : SMessenger) : Prop :=
  ∀ x, Sock.ReadTo x out (m.sock x) (m'.sock x)

theorem Reads.trans (first : Reads m none m') (second : Reads m' out m'') : Reads m out m'' :=
  fun x => (first x).trans (second x)

theorem reads_arrive (m : SMessenger) (arrivals : SocketType → Nat) :
    Reads m none (m.arrive arrivals) := fun _ => Sock.readTo_arrive rfl _

theorem reads_refl (none : ∀ x, takenFrom x out = []) : Reads m out m :=
  fun x => Sock.readTo_refl (none x)

/-- `nextMsg` on one of the sockets. -/
theorem reads_nextMsg (m : SMessenger) (fd : SocketType) (late later : Nat) :
    Reads m ((nextMsg maxDatalen (m.sock fd) late later).1.toSMsg fd)
      (m.setSock fd (nextMsg maxDatalen (m.sock fd) late later).2) := by
  intro x
  by_cases here : x = fd
  · subst here
    rw [setSock_self]
    exact nextMsg_readTo x (m.sock x) late later
  · rw [setSock_of_ne m _ here]
    exact Sock.readTo_refl (Next.takenFrom_ne _ here)

/-- An error closes a socket, and if it opens one, that is no connection. -/
theorem socketErrorHandling_sock (m : SMessenger) (fd x : SocketType)
    (reopened : Option SocketType) :
    (m.socketErrorHandling fd reopened).sock x = m.sock x ∨
      ((m.socketErrorHandling fd reopened).sock x).kind ≠ .stream := by
  have closed : (m.setSock fd .closed).sock x = m.sock x ∨
      ((m.setSock fd .closed).sock x).kind ≠ .stream := by
    by_cases here : x = fd
    · subst here
      rw [setSock_self]
      exact .inr Kind.noConfusion
    · exact .inl (setSock_of_ne m .closed here)
  unfold socketErrorHandling
  split
  case isFalse connection => exact closed
  case isTrue multicast =>
    cases reopened with
    | none => exact closed
    | some y =>
        show ((m.setSock fd .closed).setSock y (.dgram [] [])).sock x = _ ∨
          (((m.setSock fd .closed).setSock y (.dgram [] [])).sock x).kind ≠ .stream
        by_cases here : x = y
        · subst here
          rw [setSock_self]
          exact .inr Kind.noConfusion
        · rw [setSock_of_ne _ _ here]
          exact closed

theorem reads_socketErrorHandling (m : SMessenger) (fd : SocketType)
    (reopened : Option SocketType) :
    Reads m (some (SMsg.ofError errcodePeerDisconnected 0 0 fd))
      (m.socketErrorHandling fd reopened) := by
  intro x
  have none : takenFrom x (some (SMsg.ofError errcodePeerDisconnected 0 0 fd)) = [] := by
    simp [takenFrom, SMsg.ofError]
  rcases m.socketErrorHandling_sock fd x reopened with same | closed
  · rw [same]
    exact Sock.readTo_refl none
  · exact Sock.readTo_of_closed closed

/-- Connections have positive numbers, as those of `accept` and `socket` are. -/
def Numbered (m : SMessenger) : Prop := ∀ x, (m.sock x).kind = .stream → 0 ≤ x

theorem Numbered.reads (numbered : Numbered m) (reads : Reads m out m') : Numbered m' :=
  fun x stream => numbered x (reads x stream).1

theorem visit_reads (numbered : Numbered m) (fd : SocketType) (look : Look) :
    Reads m (m.visit fd look).1 (m.visit fd look).2 := by
  have arrived := reads_arrive m look.arrivals
  have numbered' := numbered.reads arrived
  have read := reads_nextMsg (m.arrive look.arrivals) fd look.late look.later
  unfold visit
  dsimp only
  split
  case isFalse passed => exact arrived
  case isTrue reported =>
    split
    case isTrue problem => exact arrived.trans (reads_socketErrorHandling _ fd look.reopened)
    case isFalse fine =>
      split
      case isFalse silent => exact arrived
      case isTrue readable =>
        split
        case h_1 s eq =>
          rw [eq] at read
          exact (arrived.trans read).trans (reads_socketErrorHandling _ fd look.reopened)
        case h_2 s eq =>
          rw [eq] at read
          exact arrived.trans read
        case h_3 msgtag ip port msg s eq =>
          rw [eq] at read
          split
          case isTrue positive => exact arrived.trans read
          case isFalse negative =>
            -- what is read here is dropped, but it is from no connection
            apply arrived.trans
            intro x
            by_cases here : x = fd
            · subst here
              apply Sock.readTo_of_closed
              intro stream
              have number := numbered' x (read x stream).1
              exact reported.1 (Int.le_antisymm (Int.not_lt.mp negative) number)
            · rw [setSock_of_ne _ s here]
              exact Sock.readTo_refl rfl

theorem pass_reads (entries : List (SocketType × Look)) (numbered : Numbered m) :
    Reads m (m.pass entries).1 (m.pass entries).2 := by
  induction entries generalizing m with
  | nil => exact reads_refl fun _ => rfl
  | cons entry rest ih =>
      obtain ⟨fd, look⟩ := entry
      have first := visit_reads numbered fd look
      rw [pass_cons]
      split
      case isTrue nothing =>
        rw [nothing] at first
        exact first.trans (ih (numbered.reads first))
      case isFalse message => exact first

theorem polls_reads (passes : List (List Look)) (numbered : Numbered m) :
    Reads m (m.polls passes).1 (m.polls passes).2 := by
  induction passes generalizing m with
  | nil => exact reads_refl fun _ => rfl
  | cons looks more ih =>
      have first := pass_reads (m.spoll.zip looks) numbered
      rw [polls_cons]
      split
      case isTrue nothing =>
        rw [nothing] at first
        exact first.trans (ih (numbered.reads first))
      case isFalse message => exact first

/-- A call of `recv` once the server socket was looked at. -/
theorem recv_reads (env : RecvEnv) (numbered : Numbered (m.listenConn env.listen).2) :
    Reads (m.listenConn env.listen).2 (m.recv env).1 (m.recv env).2 := by
  have eq : m.recv env = if (m.listenConn env.listen).1 < 0 then
      (none, (m.listenConn env.listen).2) else (m.listenConn env.listen).2.polls env.passes := rfl
  rw [eq]
  split
  case isTrue failed => exact reads_refl fun _ => rfl
  case isFalse listened => exact polls_reads env.passes numbered

end SMessenger

/-- A messenger with what was written to each descriptor since it was opened last, and
the messages `recv` has returned for it since. -/
structure Ledger where
  messenger : SMessenger
  written : SocketType → CString
  returned : SocketType → List SMsg

namespace Ledger

def start (m : SMessenger) : Ledger :=
  { messenger := m, written := fun _ => [], returned := fun _ => [] }

/-- A connection is new, with what its peer has written already. -/
def opened (l : Ledger) : Option (SocketType × Sock) → Ledger
  | none => l
  | some (fd, s) =>
      { l with
        written := Function.update l.written fd s.pending
        returned := Function.update l.returned fd [] }

/-- What a call returns is noted, and what others write. -/
def note (l : Ledger) : SMessenger.Call → Ledger
  | .recv env =>
      { l with returned := fun x => l.returned x ++ takenFrom x (l.messenger.recv env).1 }
  | .connect _ _ => l
  | .others fd bytes _ _ =>
      { l with written := Function.update l.written fd (l.written fd ++ bytes) }

def step (l : Ledger) (call : SMessenger.Call) : Option Ledger :=
  (l.messenger.step call).map fun m => { (l.opened call.handed).note call with messenger := m }

/-- For every open connection: the messages returned, as frames, and the bytes left are what
was written. -/
def Balanced (l : Ledger) : Prop :=
  ∀ x, (l.messenger.sock x).kind = .stream → 0 ≤ x ∧ ∃ frames : List Frame,
    l.returned x = frames.map (Frame.toSMsg (l.messenger.sock x).getIP x) ∧
      l.written x = framing.encodeAll frames ++ (l.messenger.sock x).pending

variable {l l' : Ledger} {call : SMessenger.Call}

theorem opened_messenger (l : Ledger) (handed : Option (SocketType × Sock)) :
    (l.opened handed).messenger = l.messenger := by
  cases handed <;> rfl

theorem Balanced.numbered (balanced : l.Balanced) : l.messenger.Numbered :=
  fun x stream => (balanced x stream).1

/-- A new connection starts with nothing returned. -/
theorem Balanced.opened (balanced : l.Balanced) {handed : Option (SocketType × Sock)}
    {m : SMessenger} (possible : ∀ connection ∈ handed, 0 ≤ connection.1)
    (sock : m.sock = (handed.elim l.messenger fun c => l.messenger.setSock c.1 c.2).sock) :
    Balanced { l.opened handed with messenger := m } := by
  intro x stream
  dsimp only at stream ⊢
  rw [sock] at stream ⊢
  cases handed with
  | none => exact balanced x stream
  | some connection =>
      obtain ⟨fd, s⟩ := connection
      simp only [Option.elim_some, Ledger.opened] at stream ⊢
      by_cases here : x = fd
      · subst here
        refine ⟨possible _ rfl, [], Function.update_self _ _ _, ?_⟩
        rw [Function.update_self, SMessenger.setSock_self]
        rfl
      · rw [SMessenger.setSock_of_ne _ _ here] at stream ⊢
        rw [Function.update_of_ne here, Function.update_of_ne here]
        exact balanced x stream

theorem listenConn_sock (m : SMessenger) (listen : Listen) :
    (m.listenConn listen).2.sock =
      (listen.accepted.elim m fun c => m.setSock c.1 c.2).sock := by
  cases listen with
  | idle => rfl
  | broken reopened => cases reopened <;> rfl
  | incoming accepted => cases accepted <;> rfl

theorem connect_sock (m : SMessenger) (client : Option (SocketType × Sock)) (polled : Bool) :
    (m.connect client polled).2.sock = (client.elim m fun c => m.setSock c.1 c.2).sock := by
  cases client with
  | none => rfl
  | some connection => cases polled <;> rfl

theorem Balanced.recv (balanced : l.Balanced) (env : RecvEnv)
    (possible : ∀ connection ∈ env.listen.accepted, 0 ≤ connection.1) :
    Balanced { (l.opened env.listen.accepted).note (.recv env) with
      messenger := (l.messenger.recv env).2 } := by
  have listened := balanced.opened possible (listenConn_sock l.messenger env.listen)
  have reads := SMessenger.recv_reads env listened.numbered
  intro x stream
  obtain ⟨open_, ip, frames, taken, bytes⟩ := reads x stream
  obtain ⟨number, before, returned, written⟩ := listened x open_
  refine ⟨number, before ++ frames, ?_, ?_⟩
  · show (l.opened _).returned x ++ takenFrom x ((l.opened _).messenger.recv env).1 = _
    rw [opened_messenger, taken, ip, List.map_append]
    exact congrArg (· ++ _) returned
  · rw [framing.encodeAll_append, List.append_assoc, ← bytes]
    exact written

theorem Balanced.step (balanced : l.Balanced) (taken : l.step call = some l') : l'.Balanced := by
  obtain ⟨m, stepped, rfl⟩ := Option.map_eq_some_iff.mp taken
  obtain ⟨possible, rfl⟩ := Option.ite_some_none_eq_some.mp stepped
  have numbered : ∀ connection ∈ call.handed, 0 ≤ connection.1 :=
    fun connection made => (possible connection made).1
  cases call with
  | recv env => exact balanced.recv env numbered
  | connect client polled => exact balanced.opened numbered (connect_sock l.messenger client polled)
  | others fd bytes datagrams closes =>
      have same : ∀ t : Sock, (t.receive bytes datagrams closes).getIP = t.getIP := by
        intro t
        cases t <;> rfl
      intro x stream
      dsimp only [SMessenger.after, note, Ledger.opened, SMessenger.Call.handed] at stream ⊢
      by_cases here : x = fd
      · subst here
        rw [SMessenger.setSock_self, Sock.kind_receive] at stream
        obtain ⟨number, frames, returned, written⟩ := balanced x stream
        rw [SMessenger.setSock_self, Function.update_self, same]
        refine ⟨number, frames, returned, ?_⟩
        rw [written, List.append_assoc]
        cases eq : l.messenger.sock x with
        | stream wire buffer eof remote => simp [Sock.receive, Sock.pending]
        | dgram wire queue =>
            rw [eq] at stream
            cases stream
        | closed =>
            rw [eq] at stream
            cases stream
      · rw [SMessenger.setSock_of_ne _ _ here] at stream ⊢
        rw [Function.update_of_ne here]
        exact balanced x stream

theorem balanced_start {ip : IP} {servsock mcsock : SocketType} {port : Port} {m : SMessenger}
    (made : SMessenger.construct ip servsock port mcsock = some m) : (start m).Balanced := by
  obtain ⟨_, made⟩ := Option.ite_none_left_eq_some.mp made
  obtain ⟨_, made⟩ := Option.ite_none_left_eq_some.mp made
  obtain rfl := Option.some.inj made
  intro x stream
  have none : (Function.update (fun _ => Sock.closed) mcsock (.dgram [] []) x).kind ≠ .stream := by
    rw [Function.update_apply]
    split <;> exact Kind.noConfusion
  exact absurd stream none

/-- In every run from the constructor, whatever peers write on a connection, in whatever
pieces it comes, whatever fails elsewhere and whenever `recv` is called: the messages
returned for an open connection are the first frames of the bytes written to it, and
the bytes behind them are those that are still there. -/
theorem bytes_of_run {ip : IP} {servsock mcsock : SocketType} {port : Port} {m : SMessenger}
    {calls : List SMessenger.Call} (made : SMessenger.construct ip servsock port mcsock = some m)
    (run : Run (Det step) (start m) calls l) (x : SocketType)
    (stream : (l.messenger.sock x).kind = .stream) :
    l.returned x = ((framing.parse (l.written x)).take (l.returned x).length).map
        (Frame.toSMsg (l.messenger.sock x).getIP x) ∧
      l.written x = framing.encodeAll ((framing.parse (l.written x)).take (l.returned x).length) ++
        (l.messenger.sock x).pending := by
  have balanced : l.Balanced := run.invariant (balanced_start made) fun _ _ _ => Balanced.step
  obtain ⟨_, frames, returned, written⟩ := balanced x stream
  have first : (framing.parse (l.written x)).take (l.returned x).length = frames := by
    rw [written, framing.parse_encodeAll_append framing_exact, returned, List.length_map,
      List.take_left]
  rw [first]
  exact ⟨returned, written⟩

/-- A message comes in two pieces, with the start of the next one. -/
theorem bytes_of_run_two_pieces :
    ∃ m l, SMessenger.construct 1 3 10 4 = some m ∧ Run (Det step) (start m)
      [.recv ⟨.incoming (some (5, .stream [] [] false 2)), []⟩,
       .others 5 [0, 7, 0, 9, 0, 0, 0] [] false,
       .recv ⟨.idle, [[⟨0, fun _ => 0, 0, 0, none⟩, ⟨POLLIN, fun _ => 9, 0, 0, none⟩]]⟩,
       .others 5 [1, 65, 0, 8] [] false,
       .recv ⟨.idle, [[⟨0, fun _ => 0, 0, 0, none⟩, ⟨POLLIN, fun _ => 2, 1, 0, none⟩]]⟩] l ∧
      (l.returned 5).length = 1 ∧
      l.returned 5 = ((framing.parse (l.written 5)).take (l.returned 5).length).map
        (Frame.toSMsg (l.messenger.sock 5).getIP 5) := by
  obtain ⟨m, l, made, run, one, stream⟩ : ∃ m l, SMessenger.construct 1 3 10 4 = some m ∧
      Run (Det step) (start m)
      [.recv ⟨.incoming (some (5, .stream [] [] false 2)), []⟩,
       .others 5 [0, 7, 0, 9, 0, 0, 0] [] false,
       .recv ⟨.idle, [[⟨0, fun _ => 0, 0, 0, none⟩, ⟨POLLIN, fun _ => 9, 0, 0, none⟩]]⟩,
       .others 5 [1, 65, 0, 8] [] false,
       .recv ⟨.idle, [[⟨0, fun _ => 0, 0, 0, none⟩, ⟨POLLIN, fun _ => 2, 1, 0, none⟩]]⟩] l ∧
      (l.returned 5).length = 1 ∧ (l.messenger.sock 5).kind = .stream :=
    ⟨_, _, rfl, run_det_iff.mpr rfl, by decide +kernel, by decide +kernel⟩
  exact ⟨m, l, made, run, one, (bytes_of_run made run 5 stream).1⟩

end Ledger

end LibSBus
