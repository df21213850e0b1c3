import LibSBus.SMessenger.Multicast
import LibSBus.SMessenger.Registered
import LibSBus.SBus.Tags

/-!
A messenger without connections. What it is sent is read off the multicast socket,
one datagram for each message, in the order in which the datagrams came. Some of
them have arrived and some are still on the wire, and more of them may arrive at
any point of a call.
-/

namespace LibSBus

open Lib

namespace Sock

/-- The datagrams sent to a socket and not read yet: those that have arrived first. -/
def inbound : Sock → List Datagram
  | .dgram wire queue => queue ++ wire
  | _ => []

@[simp] theorem inbound_arrive (s : Sock) (n : Nat) : (s.arrive n).inbound = s.inbound := by
  cases s with
  | stream wire buffer eof remote => rfl
  | dgram wire queue => simp [arrive, inbound]
  | closed => rfl

end Sock

/-- A well-formed datagram is read, whatever is still on its way. -/
theorem nextMsg_reads {wire rest : List Datagram} {d : Datagram} (good : d.WellFormed)
    (fd : SocketType) (late later : Nat) :
    ∃ s, nextMsg maxDatalen (.dgram wire (d :: rest)) late later =
        (.message (d.message fd).msgtag (d.message fd).ip (d.message fd).port (d.message fd).msg,
          s) ∧ s.kind = .dgram ∧ s.inbound = rest ++ wire := by
  obtain ⟨long, low, high, whole⟩ := good
  obtain ⟨f, found, tag, port, data⟩ :=
    scan_frame (⟨low, high⟩ : 0 ≤ datasize d.bytes ∧ _) (by omega)
  have nonempty : d.bytes ≠ [] := by
    intro empty
    rw [empty] at long
    exact absurd long (by decide)
  refine ⟨((Sock.dgram wire (d :: rest)).arrive late |>.arrive later).consume
    (hdrlen + (datasize d.bytes).toNat), ?_, rfl, ?_⟩
  · rw [nextMsg_dgram]
    dsimp only
    rw [if_neg nonempty, if_neg (Nat.not_lt.mpr long), found]
    simp [Datagram.message, tag, port, data]
  · simp [Sock.arrive, Sock.consume, Sock.inbound]

/-- A frame in a datagram. -/
theorem wellFormed_encode (f : Frame) (ip : IP) : (⟨ip, f.encode⟩ : Datagram).WellFormed := by
  have head := congrArg (fun t : Int × Port × Int => t.2.2)
    (unpackhdr_packhdr f.msgtag f.port f.data.length)
  have size : datasize f.encode = f.data.length := by
    rw [datasize, Frame.encode, List.take_left' (length_packhdr _ _ _)]
    exact head.trans (ofInt_toInt_of_length f.data_fits)
  have fits := f.data_fits
  refine ⟨?_, ?_, ?_, ?_⟩ <;> simp only [size, Frame.length_encode] <;> omega

theorem message_encode (f : Frame) (ip : IP) (fd : SocketType) :
    (⟨ip, f.encode⟩ : Datagram).message fd =
      { msgtag := f.msgtag, ip := if ip = 0 then -1 else ip, port := f.port, socket := fd,
        msg := f.data, error := false } := by
  have head : f.encode.take hdrlen = packhdr f.msgtag f.port f.data.length :=
    List.take_left' (length_packhdr _ _ _)
  have body : f.encode.drop hdrlen = f.data := List.drop_left' (length_packhdr _ _ _)
  have size : datasize f.encode = f.data.length := by
    rw [datasize, head, unpackhdr_packhdr]
    exact ofInt_toInt_of_length f.data_fits
  rw [Datagram.message]
  simp only [head, body, size, unpackhdr_packhdr, ofInt_toInt_of_short f.tag_fits,
    Int.toNat_natCast, List.take_length]

/-- The frame `sendMulticast` gives the kernel, for a message whose length is an `int`. -/
theorem sendMulticast_frame {m : SMessenger} {msgtag : Int} {msg frame : CString}
    {accepted : Bool} {ret : Int} (int : msg.length < 2 ^ 31)
    (call : m.sendMulticast msgtag msg accepted = some (ret, some frame)) :
    ∃ f : Frame, frame = f.encode ∧ f.msgtag = toShort msgtag ∧ f.port = m.port ∧
      f.data = msg := by
  obtain ⟨small, rfl⟩ := sendMulticast_offered (c := { msgtag, msg, accepts := none }) call
  have length : toInt msg.length = msg.length := by
    rw [toInt_eq, Nat.mod_eq_of_lt (by omega), if_pos int]
  dsimp only at small
  rw [length] at small
  let f : Frame :=
    { msgtag := toShort msgtag, port := m.port, data := msg
      tag_fits := short_bounds (BitVec.ofInt 16 msgtag), data_fits := small.2 }
  refine ⟨f, ?_, rfl, rfl, rfl⟩
  show Sending.offered m.port _ = packhdr (toShort msgtag) m.port msg.length ++ msg
  simp [Sending.offered, packhdr_toShort, length]

namespace SMessenger

variable {m m' : SMessenger} {look : Look}

/-- The datagrams sent to the multicast socket and not read yet. -/
def inbound (m : SMessenger) : List Datagram := (m.sock m.mcsock).inbound

/-- There are no connections, the multicast socket is open, and what is sent to it is
well-formed. -/
structure Tuned (m : SMessenger) : Prop where
  alone : m.spoll = [m.mcsock]
  positive : 0 < m.mcsock
  opened : (m.sock m.mcsock).kind = .dgram
  good : ∀ d ∈ m.inbound, d.WellFormed

/-- A part of `recv` has taken some datagrams and returns their messages; it has taken
one at most. -/
structure Took (m : SMessenger) (result : Option SMsg × SMessenger) : Prop where
  tuned : result.2.Tuned
  mcsock : result.2.mcsock = m.mcsock
  port : result.2.port = m.port
  taken : ∃ read, m.inbound = read ++ result.2.inbound ∧
    result.1.toList = read.map (Datagram.message m.mcsock)

theorem Tuned.took_nothing (tuned : m.Tuned) : Took m (none, m) :=
  ⟨tuned, rfl, rfl, [], rfl, rfl⟩

/-- One part of a call that took nothing, and the next one. -/
theorem Took.andThen {first next : Option SMsg × SMessenger} (took : Took m first)
    (more : first.2.Tuned → Took first.2 next) :
    Took m (if first.1 = none then next else first) := by
  split
  case isFalse given => exact took
  case isTrue none =>
    obtain ⟨read, inbound, nothing⟩ := took.taken
    have empty : read = [] := by
      rw [none] at nothing
      exact List.map_eq_nil_iff.mp nothing.symm
    subst empty
    have rest := more took.tuned
    refine ⟨rest.tuned, rest.mcsock.trans took.mcsock, rest.port.trans took.port, ?_⟩
    rw [← took.mcsock, inbound]
    exact rest.taken

theorem Tuned.set (tuned : m.Tuned) {s : Sock} (open_ : s.kind = .dgram)
    (fewer : s.inbound ⊆ m.inbound) : (m.setSock m.mcsock s).Tuned where
  alone := tuned.alone
  positive := tuned.positive
  opened := by rw [setSock_mcsock, setSock_self, open_]
  good := by
    rw [inbound, setSock_mcsock, setSock_self]
    exact fun d mem => tuned.good d (fewer mem)

theorem inbound_arrived (m : SMessenger) (arrivals : SocketType → Nat) :
    (m.arrive arrivals).inbound = m.inbound := Sock.inbound_arrive _ _

theorem Tuned.arrive (tuned : m.Tuned) (arrivals : SocketType → Nat) :
    (m.arrive arrivals).Tuned where
  alone := tuned.alone
  positive := tuned.positive
  opened := by
    rw [arrive_sock, arrive_mcsock, Sock.kind_arrive]
    exact tuned.opened
  good := by
    rw [inbound_arrived]
    exact tuned.good

theorem Tuned.visit (tuned : m.Tuned) (fine : ¬ look.Problem) :
    Took m (m.visit m.mcsock look) := by
  have arrived := tuned.arrive look.arrivals
  have same := inbound_arrived m look.arrivals
  by_cases readable : look.has POLLIN
  case neg =>
    rw [visit_idle (.inr ⟨fine, readable⟩)]
    exact ⟨arrived, rfl, rfl, [], same.symm, rfl⟩
  cases eq : (m.arrive look.arrivals).sock m.mcsock with
  | stream wire buffer eof remote =>
      have opened : ((m.arrive look.arrivals).sock m.mcsock).kind = .dgram := arrived.opened
      rw [eq] at opened
      cases opened
  | closed =>
      have opened : ((m.arrive look.arrivals).sock m.mcsock).kind = .dgram := arrived.opened
      rw [eq] at opened
      cases opened
  | dgram wire queue =>
      have waiting : m.inbound = queue ++ wire := by
        rw [← same, inbound, arrive_mcsock, eq, Sock.inbound]
      cases queue with
      | nil =>
          have read : nextMsg maxDatalen ((m.arrive look.arrivals).sock m.mcsock) look.late
              look.later = (.pending, .dgram wire []) := by
            rw [eq]
            rfl
          rw [visit_pending tuned.positive fine readable read]
          refine ⟨arrived.set rfl ?_, rfl, rfl, [], ?_, rfl⟩
          · rw [same, waiting]
            exact List.Subset.refl _
          · rw [waiting]
            exact (congrArg Sock.inbound (setSock_self (m.arrive look.arrivals) m.mcsock
              (.dgram wire []))).symm
      | cons d rest =>
          have good := tuned.good d (waiting ▸ List.mem_cons_self)
          obtain ⟨s, read, open_, left⟩ := nextMsg_reads good m.mcsock look.late look.later
          rw [← eq] at read
          rw [visit_message tuned.positive fine readable read]
          refine ⟨arrived.set open_ ?_, rfl, rfl, [d], ?_, rfl⟩
          · rw [same, waiting, left]
            exact List.subset_cons_self d (rest ++ wire)
          · have after : ((m.arrive look.arrivals).setSock m.mcsock s).inbound = rest ++ wire :=
              (congrArg Sock.inbound (setSock_self _ m.mcsock s)).trans left
            rw [waiting]
            exact congrArg (d :: ·) after.symm

theorem Tuned.pass (tuned : m.Tuned) (looks : List Look) (fine : ∀ look ∈ looks, ¬ look.Problem) :
    Took m (m.pass (m.spoll.zip looks)) := by
  rw [tuned.alone]
  cases looks with
  | nil => exact tuned.took_nothing
  | cons look more =>
      rw [List.zip_cons_cons, List.zip_nil_left, pass_cons]
      exact (tuned.visit (fine look List.mem_cons_self)).andThen Tuned.took_nothing

theorem Tuned.polls (tuned : m.Tuned) (passes : List (List Look))
    (fine : ∀ looks ∈ passes, ∀ look ∈ looks, ¬ look.Problem) : Took m (m.polls passes) := by
  induction passes generalizing m with
  | nil => exact tuned.took_nothing
  | cons looks more ih =>
      rw [polls_cons]
      apply (tuned.pass looks (fine looks List.mem_cons_self)).andThen
      exact fun tuned' => ih tuned' fun looks' mem => fine looks' (List.mem_cons_of_mem looks mem)

end SMessenger

/-- Nobody connects, and `poll` reports no problem on the multicast socket. -/
def RecvEnv.Undisturbed (env : RecvEnv) : Prop :=
  env.listen.accepted = none ∧ ∀ looks ∈ env.passes, ∀ look ∈ looks, ¬ look.Problem

instance (env : RecvEnv) : Decidable env.Undisturbed := inferInstanceAs (Decidable (_ ∧ _))

namespace SMessenger

variable {m : SMessenger}

/-- What happens to the server socket does not matter. -/
theorem Tuned.listenConn (tuned : m.Tuned) {listen : Listen} (nobody : listen.accepted = none) :
    Took m (none, (m.listenConn listen).2) := by
  cases listen with
  | idle => exact tuned.took_nothing
  | broken reopened =>
      cases reopened <;> exact ⟨⟨tuned.alone, tuned.positive, tuned.opened, tuned.good⟩, rfl, rfl,
        [], rfl, rfl⟩
  | incoming accepted =>
      obtain rfl : accepted = none := nobody
      exact tuned.took_nothing

/-- A call of `recv` reads the next datagram, or none. -/
theorem Tuned.recv (tuned : m.Tuned) {env : RecvEnv} (undisturbed : env.Undisturbed) :
    Took m (m.recv env) := by
  have listened := tuned.listenConn undisturbed.1
  unfold SMessenger.recv
  dsimp only
  split
  case isTrue failed => exact listened
  case isFalse ready =>
    exact listened.andThen fun tuned' => tuned'.polls env.passes undisturbed.2

/-- A datagram is sent to the multicast socket. -/
theorem Tuned.receive (tuned : m.Tuned) {d : Datagram} (good : d.WellFormed) :
    (m.setSock m.mcsock ((m.sock m.mcsock).receive [] [d] false)).Tuned ∧
      (m.setSock m.mcsock ((m.sock m.mcsock).receive [] [d] false)).inbound =
        m.inbound ++ [d] := by
  have more : ((m.sock m.mcsock).receive [] [d] false).inbound = m.inbound ++ [d] := by
    have opened := tuned.opened
    rw [inbound]
    cases eq : m.sock m.mcsock with
    | dgram wire queue => simp [Sock.receive, Sock.inbound]
    | stream wire buffer eof remote =>
        rw [eq] at opened
        cases opened
    | closed =>
        rw [eq] at opened
        cases opened
  have waiting : (m.setSock m.mcsock ((m.sock m.mcsock).receive [] [d] false)).inbound =
      m.inbound ++ [d] := (congrArg Sock.inbound (setSock_self m m.mcsock _)).trans more
  refine ⟨⟨tuned.alone, tuned.positive, ?_, ?_⟩, waiting⟩
  · rw [setSock_mcsock, setSock_self, Sock.kind_receive]
    exact tuned.opened
  · rw [waiting]
    intro x mem
    rcases List.mem_append.mp mem with old | new
    · exact tuned.good x old
    · exact List.mem_singleton.mp new ▸ good

theorem tuned_construct {ip : IP} {servsock mcsock : SocketType} {port : Port}
    (made : construct ip servsock port mcsock = some m) (positive : 0 < mcsock) :
    m.Tuned ∧ m.mcsock = mcsock ∧ m.ip = ip ∧ m.port = port ∧ m.inbound = [] := by
  obtain ⟨_, made⟩ := Option.ite_none_left_eq_some.mp made
  obtain ⟨_, made⟩ := Option.ite_none_left_eq_some.mp made
  obtain rfl := Option.some.inj made
  have none : (initMCast { servsock, mcsock := invalidSocket, ip, port, spoll := []
                           sock := fun _ => .closed } (some mcsock)).inbound = [] :=
    congrArg Sock.inbound (setSock_self _ mcsock _)
  refine ⟨⟨rfl, positive, ?_, ?_⟩, rfl, rfl, rfl, none⟩
  · exact congrArg Sock.kind (setSock_self _ mcsock _)
  · rw [none]
    exact fun d mem => by cases mem

end SMessenger

end LibSBus
