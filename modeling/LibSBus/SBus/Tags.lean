import LibSBus.SMessenger.Lengths
import LibSBus.SBus.Pending
import LibSBus.SBus.Replies

/-!
The tag of a message, from the `int` that `send` is given to the `int` that `recv`
stores at another instance. The header has 16 bits for it, and both ends read
them as a `short`. What the receiver does with the message depends on nothing
but the tag it reads.
-/

namespace LibSBus

open Lib SContacts

/-- The frame that a call of `SBus::send` which returned 0 has put on the wire. -/
inductive Sent (msgtag : Int) : CString → Prop
  | multicast (m : SMessenger) (msg : CString) (accepted : Bool) (frame : CString)
      (call : m.sendMulticast msgtag msg accepted = some (0, some frame)) : Sent msgtag frame
  | unicast (b b' : SBus) (env : SendEnv) (peer : SBusPeer) (actions : List Action)
      (tag : Int) (socket : SocketType) (msg text : CString)
      (call : b.send env msgtag peer msg = (0, b', actions))
      (written : .unicast tag socket text ∈ actions)
      (tcpPort : Port) (accepts : Option Nat) (stream frame : CString)
      (sent : sendUnicast tcpPort tag text accepts stream = some (0, stream ++ frame)) :
      Sent msgtag frame

/-- The frame is what `nextMsg` comes to next on the socket. -/
inductive Arrived (frame : CString) : Sock → Prop
  | dgram (wire rest : List Datagram) (ip : IP) :
      Arrived frame (.dgram wire (⟨ip, frame⟩ :: rest))
  | stream (wire behind : CString) (eof : Bool) (remote : IP) :
      Arrived frame (.stream wire (frame ++ behind) eof remote)

/-- The message `SMessenger::recv` makes of what `nextMsg` gives on `fd`. -/
def Next.smsg (fd : SocketType) : Next → Option SMsg
  | .message msgtag ip port msg => some { msgtag, ip, port, socket := fd, msg, error := false }
  | _ => none

/-- At every instance but the one at the address in the message, `recv` takes it off
the queue and stores this tag, or goes on without handing it out. -/
def SMsg.StoredAs (smsg : SMsg) (out : Option Int) : Prop :=
  ∀ serverIP serverPort mcsock events s env rest,
    Run (Det Inbox.step) (.start serverIP serverPort mcsock) events s → s.inq = smsg :: rest →
    s.IdsLeft → ¬ (smsg.ip = serverIP ∧ smsg.port = serverPort) →
    ∃ t peer, s.step (.turn env) = some t ∧
      t.received = s.received ++ out.toList.map fun tag => ⟨smsg, tag, peer, smsg.msg⟩

/-- What becomes of a message sent with the tag. -/
def TagSeen (msgtag : Int) (out : Option Int) : Prop :=
  ∀ frame, Sent msgtag frame → ∀ sock, Arrived frame sock → ∀ fd late later,
    ∃ smsg, (nextMsg maxDatalen sock late later).1.smsg fd = some smsg ∧
      (0 < msgtag → ¬ smsg.msgtag ≤ 0) ∧ smsg.StoredAs out

/-- A search is not handed out, and the tag 65535 arrives as that of a system
message. -/
theorem tags_not_seen :
    ¬ TagSeen sbusFind (some sbusFind) ∧ ¬ TagSeen 65535 (some 65535) := by
  let m : SMessenger :=
    { servsock := 3, mcsock := 4, ip := 2, port := 20, spoll := [4], sock := fun _ => .closed }
  constructor
  · intro seen
    have frame : m.sendMulticast sbusFind [97] true =
        some (0, some [0, 0, 0, 20, 0, 0, 0, 1, 97]) := by decide
    obtain ⟨smsg, read, _, stored⟩ := seen _ (.multicast m [97] true _ frame) _
      (.dgram [] [] 2) 4 0 0
    have search : smsg = ⟨sbusFind, 2, 20, 4, [97], false⟩ := (Option.some.inj read).symm
    rw [search] at stored
    have run := run_det_iff.mpr (rfl : [Inbox.Event.push ⟨sbusFind, 2, 20, 4, [97], false⟩].foldlM
      Inbox.step (.start 1 10 4) = some _)
    obtain ⟨t, peer, taken, received⟩ := stored 1 10 4 _ _ Inbox.quietStep [] run rfl (by decide)
      (by decide)
    obtain rfl := Option.some.inj taken
    exact List.cons_ne_nil _ _ received.symm
  · intro seen
    have frame : m.sendMulticast 65535 [97] true =
        some (0, some [255, 255, 0, 20, 0, 0, 0, 1, 97]) := by decide
    obtain ⟨smsg, read, user, _⟩ := seen _ (.multicast m [97] true _ frame) _
      (.dgram [] [] 2) 4 0 0
    have system : smsg = ⟨-1, 2, 20, 4, [97], false⟩ := (Option.some.inj read).symm
    rw [system] at user
    exact user (by decide) (by decide)

/-- The buffer that is sent is a frame with the tag cut to 16 bits. -/
theorem offered_encode (port : Port) (c : SendCall)
    (small : 0 ≤ toInt c.msg.length ∧ toInt c.msg.length ≤ maxDatalen) :
    ∃ f : Frame, Sending.offered port c = f.encode ∧ f.msgtag = toShort c.msgtag ∧
      f.port = port := by
  have length : ((c.msg.take (toInt c.msg.length).toNat).length : Int) = toInt c.msg.length := by
    have bound := Sending.toInt_toNat_le c.msg.length
    rw [List.length_take]
    omega
  let f : Frame :=
    { msgtag := toShort c.msgtag, port, data := c.msg.take (toInt c.msg.length).toNat
      tag_fits := short_bounds (BitVec.ofInt 16 c.msgtag)
      data_fits := length.trans_le small.2 }
  have size : (f.data.length : Int) = toInt c.msg.length := length
  refine ⟨f, ?_, rfl, rfl⟩
  rw [Frame.encode, size, packhdr_toShort, Sending.offered]

/-- What `sendMulticast` transmits, if it does. -/
theorem sendMulticast_offered {m : SMessenger} {c : SendCall} {accepted : Bool} {ret : Int}
    {frame : CString}
    (call : m.sendMulticast c.msgtag c.msg accepted = some (ret, some frame)) :
    (0 ≤ toInt c.msg.length ∧ toInt c.msg.length ≤ maxDatalen) ∧
      frame = Sending.offered m.port c := by
  unfold SMessenger.sendMulticast at call
  dsimp only at call
  split at call
  case isTrue big => simp at call
  case isFalse fine =>
    split at call
    case isTrue negative => simp at call
    case isFalse positive =>
      split at call
      case isTrue taken =>
        refine ⟨by omega, ?_⟩
        have sent := (Prod.mk.inj (Option.some.inj call)).2
        simpa [Sending.offered, packhdr_toShort] using sent.symm
      case isFalse refused => simp at call

/-- What `sendUnicast` transmits when it returns 0. -/
theorem sendUnicast_offered {tcpPort : Port} {c : SendCall} {stream frame : CString}
    (call : sendUnicast tcpPort c.msgtag c.msg c.accepts stream = some (0, stream ++ frame)) :
    (0 ≤ toInt c.msg.length ∧ toInt c.msg.length ≤ maxDatalen) ∧
      frame = Sending.offered tcpPort c := by
  by_cases big : toInt c.msg.length > maxDatalen
  · rw [sendUnicast, if_pos big] at call
    simp at call
  by_cases negative : toInt c.msg.length < 0
  · rw [sendUnicast, if_neg big, if_pos negative] at call
    cases call
  have small : 0 ≤ toInt c.msg.length ∧ toInt c.msg.length ≤ maxDatalen := by omega
  rw [Sending.sendUnicast_eq small] at call
  refine ⟨small, ?_⟩
  split at call
  case h_1 fails => simp at call
  case h_2 n accepted =>
    split at call
    case isTrue part => simp at call
    case isFalse whole => simpa using call.symm

theorem Sent.encode {msgtag : Int} {frame : CString} (sent : Sent msgtag frame) :
    ∃ f : Frame, frame = f.encode ∧ f.msgtag = toShort msgtag := by
  cases sent with
  | multicast m msg accepted _ call =>
      let c : SendCall := { msgtag, msg, accepts := none }
      obtain ⟨small, rfl⟩ := sendMulticast_offered (c := c) call
      obtain ⟨f, whole, tag, _⟩ := offered_encode m.port c small
      exact ⟨f, whole, tag⟩
  | unicast b b' env peer actions tag socket msg text call written tcpPort accepts stream _ sent =>
      obtain ⟨rfl, rfl⟩ := Talk.written_by_send call written
      let c : SendCall := { msgtag := tag, msg := text, accepts }
      obtain ⟨small, rfl⟩ := sendUnicast_offered (c := c) sent
      obtain ⟨f, whole, tag, _⟩ := offered_encode tcpPort c small
      exact ⟨f, whole, tag⟩

/-- A datagram that is a frame is read as its message. -/
theorem nextMsg_dgram_frame (f : Frame) (ip : IP) (wire rest : List Datagram) (late later : Nat) :
    (nextMsg maxDatalen (.dgram wire (⟨ip, f.encode⟩ :: rest)) late later).1 =
      .message f.msgtag (if ip = 0 then -1 else ip) f.port f.data := by
  have whole := scan_encode f []
  have long := f.not_short []
  have nonempty := f.encode_append_ne_nil []
  rw [List.append_nil] at whole long nonempty
  rw [nextMsg_dgram]
  dsimp only
  rw [if_neg nonempty, if_neg long, whole]

/-- `nextMsg` makes a message of a frame that has arrived. -/
theorem Arrived.nextMsg {f : Frame} {sock : Sock} (arrived : Arrived f.encode sock)
    (fd : SocketType) (late later : Nat) :
    ∃ ip, (LibSBus.nextMsg maxDatalen sock late later).1.smsg fd =
      some { msgtag := f.msgtag, ip, port := f.port, socket := fd, msg := f.data,
             error := false } := by
  cases arrived with
  | dgram wire rest ip =>
      rw [nextMsg_dgram_frame]
      exact ⟨_, rfl⟩
  | stream wire behind eof remote =>
      rw [nextMsg_stream (f.encode_append_ne_nil behind)]
      dsimp only
      rw [if_neg (f.not_short behind), List.append_assoc, scan_encode]
      exact ⟨_, rfl⟩

/-- What is stored is the tag that was read, unless the message is a search. -/
theorem SMsg.storedAs (smsg : SMsg) (data : smsg.error = false) :
    smsg.StoredAs (if smsg.msgtag = sbusFind then none else some smsg.msgtag) := by
  intro serverIP serverPort mcsock events s env rest run front ids other
  have orderly := run.invariant (Inbox.orderly_start mcsock) fun _ _ _ orderly taken =>
    Inbox.Orderly.step orderly taken
  have more : s.bus.scontacts.lastPeerId ≠ intMax := by
    rw [Inbox.IdsLeft, front, List.length_cons] at ids
    omega
  obtain ⟨peer, bus, actions, processed, _⟩ :=
    SBus.processSMsg_result orderly.sound env smsg more
  have iff := SBus.processSMsg_nonneg_iff orderly.sound orderly.counted processed
  rw [orderly.placed.1, orderly.placed.2, SMsg.Deliverable] at iff
  by_cases find : smsg.msgtag = sbusFind
  · have negative : ¬ peer ≥ 0 := fun positive => (iff.mp positive).2.2 find
    refine ⟨{ s with bus, inq := rest }, peer, ?_, ?_⟩
    · simp [Inbox.step, front, processed, negative]
    · simp [find]
  · have positive : peer ≥ 0 := iff.mpr ⟨data, other, find⟩
    refine ⟨{ s with
      bus, inq := rest, received := s.received ++ [⟨smsg, smsg.msgtag, peer, smsg.msg⟩] },
      peer, ?_, ?_⟩
    · simp [Inbox.step, front, processed, positive]
    · simp [find]

/-- A tag a `short` can hold is the one that `recv` stores, unless it is that of a
search, which is answered and not handed out. -/
theorem tag_seen {msgtag : Int} (fits : -2 ^ 15 ≤ msgtag ∧ msgtag < 2 ^ 15) :
    TagSeen msgtag (if msgtag = sbusFind then none else some msgtag) := by
  intro frame sent sock arrived fd late later
  obtain ⟨f, rfl, tag⟩ := sent.encode
  have same : f.msgtag = msgtag := by rw [tag, toShort, ofInt_toInt_of_short fits]
  obtain ⟨ip, read⟩ := arrived.nextMsg fd late later
  rw [same] at read
  refine ⟨_, read, fun user => Int.not_le.mpr user, ?_⟩
  exact SMsg.storedAs _ rfl

/-- The largest tag there is. -/
theorem tag_seen_largest : TagSeen 32767 (some 32767) := tag_seen (by decide)

end LibSBus
