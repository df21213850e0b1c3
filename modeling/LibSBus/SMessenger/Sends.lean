import LibSBus.SMessenger.Frames
import LibSBus.Lib.Runs

/-!
Sequences of sends on one connection. A call that the kernel serves only in part
returns -1 but leaves its first bytes on the stream, where the receiver takes
the next frame to be their continuation. The stream stays a sequence of the
frames that were reported sent exactly as long as no call is served in part, and
what is served whole is a message the header can describe.
-/

namespace LibSBus

open Lib

structure SendCall where
  msgtag : Int
  msg : CString
  accepts : Option Nat

/-- The frame of a call: the header for its message, and all of the message. -/
def SendCall.frame (tcpPort : Port) (c : SendCall) : CString :=
  packhdr c.msgtag tcpPort c.msg.length ++ c.msg

/-- The calls that returned 0 so far, and the bytes on the stream. -/
structure Sending where
  sent : List SendCall
  stream : CString

def Sending.start : Sending := { sent := [], stream := [] }

def Sending.record (s : Sending) (c : SendCall) (ret : Int) (stream : CString) : Sending :=
  { sent := if ret = 0 then s.sent ++ [c] else s.sent, stream }

def Sending.next (tcpPort : Port) (s : Sending) (c : SendCall) : Option Sending :=
  (sendUnicast tcpPort c.msgtag c.msg c.accepts s.stream).map fun (ret, stream) =>
    s.record c ret stream

/-- The receiver: `nextMsg` until it returns no message. -/
def drain : Nat → Sock → List (Int × Port × CString)
  | 0, _ => []
  | n + 1, s =>
      match nextMsg maxDatalen s 0 0 with
      | (.message msgtag _ port data, s) => (msgtag, port, data) :: drain n s
      | _ => []

/-- The stream holds the frames of the calls that returned 0, and the receiver
gets their messages out of it. -/
def Sending.Delivered (tcpPort : Port) (s : Sending) : Prop :=
  s.stream = s.sent.flatMap (SendCall.frame tcpPort) ∧
    drain s.stream.length (.stream [] s.stream false 0) =
      s.sent.map fun c => (c.msgtag, tcpPort, c.msg)

/-- What is promised of one call. -/
def Sending.Keeps (tcpPort : Port) (s : Sending) (c : SendCall) : Prop :=
  ∃ ret stream, sendUnicast tcpPort c.msgtag c.msg c.accepts s.stream = some (ret, stream) ∧
    (ret ≠ 0 → stream = s.stream) ∧ (s.record c ret stream).Delivered tcpPort

/-- The kernel takes four bytes of a frame of eight. -/
theorem short_write_stays_on_stream :
    ¬ ∀ tcpPort calls, EachStep (Det (Sending.next tcpPort)) (Sending.Keeps tcpPort)
      .start calls := by
  intro always
  obtain ⟨ret, stream, call, unchanged, _⟩ := (always 0 [⟨5, [], some 4⟩]).1
  have result : sendUnicast 0 5 [] (some 4) [] = some (-1, [0, 5, 0, 0]) := by decide
  have same := result.symm.trans call
  obtain ⟨rfl, rfl⟩ := Prod.mk.inj (Option.some.inj same)
  exact absurd (unchanged (by decide)) (by decide)

/-- A length and a tag that the header can carry. -/
def SendCall.Carried (c : SendCall) : Prop :=
  (c.msg.length : Int) ≤ maxDatalen ∧ -2 ^ 15 ≤ c.msgtag ∧ c.msgtag < 2 ^ 15

/-- The calls that do no harm: those that are refused, those of which nothing is
accepted, and those accepted whole that the header can carry. -/
def SendCall.Clean (c : SendCall) : Prop :=
  toInt c.msg.length > maxDatalen ∨
  (0 ≤ toInt c.msg.length ∧ (c.accepts = none ∨ c.accepts = some 0)) ∨
  (c.Carried ∧ ∃ n, c.accepts = some n ∧ hdrlen + c.msg.length ≤ n)

theorem toInt_of_le {n : Nat} (small : (n : Int) ≤ maxDatalen) : toInt n = n := by
  rw [toInt, ← BitVec.ofInt_natCast]
  exact ofInt_toInt_of_length small

theorem packhdr_toShort (msgtag : Int) (port : Port) (bytes : Int) :
    packhdr (toShort msgtag) port bytes = packhdr msgtag port bytes := by
  rw [packhdr, toShort, BitVec.ofInt_toInt, packhdr]

theorem drain_encodeAll (frames : List Frame) (n : Nat) (enough : frames.length ≤ n) :
    drain n (.stream [] (framing.encodeAll frames) false 0) =
      frames.map fun f => (f.msgtag, f.port, f.data) := by
  induction frames generalizing n with
  | nil =>
      cases n with
      | zero => rfl
      | succ n =>
          rw [drain, framing.encodeAll_nil, nextMsg_stream_nil]
          rfl
  | cons f frames ih =>
      cases n with
      | zero => simp at enough
      | succ n =>
          have rest := ih n (Nat.le_of_succ_le_succ enough)
          rw [drain, framing.encodeAll_cons]
          rw [show framing.encode f = f.encode from rfl, nextMsg_stream
            (f.encode_append_ne_nil _)]
          simp only [if_neg (f.not_short _), List.take_nil, List.append_nil, scan_encode,
            Sock.arrive, Sock.consume, List.drop_left, List.drop_nil, rest, List.map_cons]

/-- Calls that the header can carry write frames. -/
theorem exists_frames (tcpPort : Port) (sent : List SendCall) (carried : ∀ c ∈ sent, c.Carried) :
    ∃ frames : List Frame, framing.encodeAll frames = sent.flatMap (SendCall.frame tcpPort) ∧
      (frames.map fun f => (f.msgtag, f.port, f.data)) =
        sent.map fun c => (c.msgtag, tcpPort, c.msg) := by
  induction sent with
  | nil => exact ⟨[], rfl, rfl⟩
  | cons c sent ih =>
      obtain ⟨frames, bytes, messages⟩ := ih fun x hx => carried x (List.mem_cons_of_mem c hx)
      obtain ⟨small, short⟩ := carried c List.mem_cons_self
      let f : Frame :=
        { msgtag := c.msgtag, port := tcpPort, data := c.msg, tag_fits := short
          data_fits := small }
      refine ⟨f :: frames, ?_, ?_⟩
      · rw [framing.encodeAll_cons, bytes, List.flatMap_cons]
        rfl
      · rw [List.map_cons, messages, List.map_cons]

namespace Sending

variable {tcpPort : Port} {s : Sending} {c : SendCall}

/-- The invariant: what was sent could be carried, and is what the stream holds. -/
def Sound (tcpPort : Port) (s : Sending) : Prop :=
  (∀ c ∈ s.sent, c.Carried) ∧ s.stream = s.sent.flatMap (SendCall.frame tcpPort)

theorem Sound.delivered (sound : Sound tcpPort s) : s.Delivered tcpPort := by
  obtain ⟨frames, bytes, messages⟩ := exists_frames tcpPort s.sent sound.1
  refine ⟨sound.2, ?_⟩
  rw [sound.2, ← bytes, drain_encodeAll frames _ (framing.length_le_encodeAll frames), messages]

/-- The bytes a call offers to the kernel. -/
def offered (tcpPort : Port) (c : SendCall) : CString :=
  packhdr c.msgtag tcpPort (toInt c.msg.length) ++ c.msg.take (toInt c.msg.length).toNat

theorem toInt_toNat_le (n : Nat) : (toInt n).toNat ≤ n := by
  rw [toInt, BitVec.toInt_eq_toNat_cond, BitVec.toNat_ofNat]
  have bound := Nat.mod_le n (2 ^ 32)
  split <;> omega

theorem length_offered : (offered tcpPort c).length = hdrlen + (toInt c.msg.length).toNat := by
  have bound := toInt_toNat_le c.msg.length
  rw [offered, List.length_append, length_packhdr, List.length_take, Nat.min_eq_left bound]

/-- What one send does, by what the kernel makes of it. -/
theorem sendUnicast_eq (small : 0 ≤ toInt c.msg.length ∧ toInt c.msg.length ≤ maxDatalen)
    (stream : CString) :
    sendUnicast tcpPort c.msgtag c.msg c.accepts stream =
      match c.accepts with
      | none => some (-1, stream)
      | some n =>
          if n < (offered tcpPort c).length then
            some (-1, stream ++ (offered tcpPort c).take n)
          else some (0, stream ++ offered tcpPort c) := by
  rw [sendUnicast, if_neg (by omega), if_neg (by omega)]
  cases c.accepts with
  | none => rfl
  | some n =>
      dsimp only
      rw [length_offered, packhdr_toShort, ← offered]
      by_cases part : n < hdrlen + (toInt c.msg.length).toNat
      · rw [if_pos part, if_pos (by omega), Nat.min_eq_left (by omega)]
      · rw [if_neg part, if_neg (by omega)]

/-- A message the header can carry, accepted whole, is put on the stream whole. -/
theorem sendUnicast_whole (tcpPort : Port) {n : Nat} (carried : c.Carried)
    (accepts : c.accepts = some n) (whole : hdrlen + c.msg.length ≤ n) (stream : CString) :
    sendUnicast tcpPort c.msgtag c.msg c.accepts stream =
      some (0, stream ++ c.frame tcpPort) := by
  have length := toInt_of_le carried.1
  have all : offered tcpPort c = c.frame tcpPort := by
    rw [offered, length, Int.toNat_natCast, List.take_length, SendCall.frame]
  rw [sendUnicast_eq (by rw [length]; exact ⟨Int.natCast_nonneg _, carried.1⟩), accepts]
  dsimp only
  rw [length_offered, length, Int.toNat_natCast, if_neg (by omega), all]

theorem keeps_of_clean (sound : Sound tcpPort s) (clean : c.Clean) :
    ∃ t, s.next tcpPort c = some t ∧ Sound tcpPort t ∧ s.Keeps tcpPort c := by
  have refused : ∀ call : sendUnicast tcpPort c.msgtag c.msg c.accepts s.stream =
      some (-1, s.stream), ∃ t, s.next tcpPort c = some t ∧ Sound tcpPort t ∧
        s.Keeps tcpPort c := by
    intro call
    refine ⟨s, ?_, sound, -1, s.stream, call, fun _ => rfl, sound.delivered⟩
    rw [next, call]
    rfl
  rcases clean with big | ⟨positive, nothing⟩ | ⟨carried, n, accepts, whole⟩
  · exact refused (if_pos big)
  · by_cases big : toInt c.msg.length > maxDatalen
    · exact refused (if_pos big)
    · apply refused
      rw [sendUnicast_eq ⟨positive, by omega⟩]
      rcases nothing with fails | zero
      · rw [fails]
      · have some : 0 < (offered tcpPort c).length := by
          rw [length_offered, hdrlen]
          omega
        rw [zero]
        simp [some]
  · have call := sendUnicast_whole tcpPort carried accepts whole s.stream
    have sound' : Sound tcpPort (s.record c 0 (s.stream ++ c.frame tcpPort)) := by
      constructor
      · intro x hx
        rcases List.mem_append.mp hx with old | new
        · exact sound.1 x old
        · exact List.mem_singleton.mp new ▸ carried
      · rw [record, if_pos rfl, List.flatMap_append, ← sound.2]
        simp
    refine ⟨_, ?_, sound', 0, _, call, fun h => absurd rfl h, sound'.delivered⟩
    rw [next, call]
    rfl

/-- A frame that was taken whole and is delivered is one the header can carry. -/
theorem carried_of_delivered (sound : Sound tcpPort s) (fits : (c.msg.length : Int) ≤ maxDatalen)
    (all : offered tcpPort c = c.frame tcpPort)
    (delivered : (s.record c 0 (s.stream ++ offered tcpPort c)).Delivered tcpPort) :
    c.Carried := by
  -- The receiver reads the tag the header has room for.
  let c' : SendCall := { c with msgtag := toShort c.msgtag }
  have carried' : c'.Carried := ⟨fits, short_bounds _⟩
  have sound' : Sound tcpPort (s.record c' 0 (s.stream ++ offered tcpPort c)) := by
    constructor
    · intro x hx
      rcases List.mem_append.mp hx with old | new
      · exact sound.1 x old
      · exact List.mem_singleton.mp new ▸ carried'
    · rw [record, if_pos rfl, List.flatMap_append, ← sound.2, all]
      simp [SendCall.frame, c', packhdr_toShort]
  have read := sound'.delivered.2.symm.trans delivered.2
  have same : toShort c.msgtag = c.msgtag := by
    rw [record, record, if_pos rfl, if_pos rfl, List.map_append, List.map_append] at read
    simpa [c'] using read
  exact ⟨fits, same ▸ short_bounds _⟩

theorem clean_of_keeps (sound : Sound tcpPort s) (keeps : s.Keeps tcpPort c) : c.Clean := by
  obtain ⟨ret, stream, call, unchanged, delivered⟩ := keeps
  by_cases big : toInt c.msg.length > maxDatalen
  · exact .inl big
  by_cases negative : toInt c.msg.length < 0
  · rw [sendUnicast, if_neg big, if_pos negative] at call
    cases call
  have small : 0 ≤ toInt c.msg.length ∧ toInt c.msg.length ≤ maxDatalen := by omega
  rw [sendUnicast_eq small] at call
  cases accepts : c.accepts with
  | none => exact .inr (.inl ⟨small.1, .inl accepts⟩)
  | some n =>
      rw [accepts] at call
      dsimp only at call
      split at call
      case isTrue part =>
        obtain ⟨rfl, rfl⟩ := Prod.mk.inj (Option.some.inj call)
        have nothing : (offered tcpPort c).take n = [] := by
          simpa using unchanged (by decide)
        have zero : n = 0 := by
          rcases List.take_eq_nil_iff.mp nothing with zero | empty
          · exact zero
          · rw [empty] at part
            exact absurd part (Nat.not_lt_zero n)
        exact .inr (.inl ⟨small.1, .inr (by rw [accepts, zero])⟩)
      case isFalse whole =>
        obtain ⟨rfl, rfl⟩ := Prod.mk.inj (Option.some.inj call)
        have all : offered tcpPort c = c.frame tcpPort := by
          have bytes := delivered.1
          rw [record, if_pos rfl, List.flatMap_append, ← sound.2] at bytes
          simpa using bytes
        have length : (toInt c.msg.length).toNat = c.msg.length := by
          have lengths := congrArg List.length all
          rw [length_offered, SendCall.frame, List.length_append, length_packhdr] at lengths
          omega
        have carried := carried_of_delivered sound (by omega) all delivered
        refine .inr (.inr ⟨carried, n, accepts, ?_⟩)
        rw [length_offered, length] at whole
        omega

/-- Over a sequence of calls, every call keeps what is promised of it if and only
if every call is clean. -/
theorem keeps_iff_clean (tcpPort : Port) (calls : List SendCall) :
    EachStep (Det (next tcpPort)) (Keeps tcpPort) start calls ↔ ∀ c ∈ calls, c.Clean := by
  have from_sound : ∀ s, Sound tcpPort s →
      (EachStep (Det (next tcpPort)) (Keeps tcpPort) s calls ↔ ∀ c ∈ calls, c.Clean) := by
    induction calls with
    | nil => exact fun s _ => iff_of_true trivial fun c hc => by cases hc
    | cons c calls ih =>
        intro s sound
        rw [List.forall_mem_cons]
        constructor
        · rintro ⟨keeps, rest⟩
          have clean := clean_of_keeps sound keeps
          obtain ⟨t, step, sound', _⟩ := keeps_of_clean sound clean
          exact ⟨clean, (ih t sound').mp (rest t step)⟩
        · rintro ⟨clean, rest⟩
          obtain ⟨t, step, sound', keeps⟩ := keeps_of_clean sound clean
          refine ⟨keeps, fun t' step' => ?_⟩
          obtain rfl := Option.some.inj (step.symm.trans step')
          exact (ih t sound').mpr rest
  refine from_sound start ⟨?_, rfl⟩
  intro c hc
  cases hc

end Sending

end LibSBus
