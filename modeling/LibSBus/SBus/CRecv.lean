import LibSBus.SPoll.Bounds
import LibSBus.SBus.Pending

/-!
`sbus_recv`, the C function around `SBus::recv`. The buffer of the caller becomes a
`string`, which `SBus::recv` assigns the message to, and of that string as many bytes
are copied back as `SBus::recv` returns. The size of the buffer plays no part in it.
-/

namespace LibSBus

open Lib SContacts

/-- What a call of `sbus_recv` leaves: the result, what it stores through its
pointers, and the bytes written from `data` on. -/
structure CRecv where
  ret : Int
  msgtag : Int
  peer : SBusPeer
  data : Nat → UInt8
  written : List Access

/-- `memcpy(data,_data.data(),res)` with a buffer of `bytes` bytes. `data` is the memory
from the start of the buffer, which goes on behind it. -/
def memcpyData (data : Nat → UInt8) (bytes : Nat) (msg : CString) (res : Int) :
    (Nat → UInt8) × List Access :=
  (fun k => if (k : Int) < res then msg.getD k 0 else data k, SPoll.span bytes 0 res.toNat)

/-- `sbus_recv` when `SBus::recv` has returned with this message. -/
def CRecv.ofReceived (data : Nat → UInt8) (bytes : Nat) (r : Received) : CRecv :=
  let res := toInt r.msg.length
  let copied := if res > 0 then memcpyData data bytes r.msg res else (data, [])
  { ret := res, msgtag := r.msgtag, peer := r.peer, data := copied.1, written := copied.2 }

/-- `sbus_recv`. No result stands for the call that waits on an empty queue. -/
def SBus.sbusRecv (b : SBus) (envs : Nat → StepEnv) (data : Nat → UInt8) (bytes : Nat)
    (inq : List SMsg) : Option (Option CRecv × SBus × List SMsg) :=
  (b.recv envs inq).map fun (out, bus, rest) => (out.map (CRecv.ofReceived data bytes), bus, rest)

/-- All that is written is in the buffer, and as many bytes of the message are there
as the result says. -/
def CRecv.KeepsBuffer (r : CRecv) : Prop :=
  (∀ a ∈ r.written, a.InBounds) ∧
    r.ret ≤ (r.written.filter fun a => a.InBounds).length

variable {bytes : Nat} {data : Nat → UInt8} {s : Inbox} {serverIP : IP} {serverPort : Port}

/-- A message is copied whole, an empty one too. -/
theorem ofReceived_eq (data : Nat → UInt8) (bytes : Nat) {r : Received}
    (small : (r.msg.length : Int) ≤ maxDatalen) :
    (CRecv.ofReceived data bytes r).ret = r.msg.length ∧
      (CRecv.ofReceived data bytes r).written = SPoll.span bytes 0 r.msg.length ∧
      ∀ k < r.msg.length, (CRecv.ofReceived data bytes r).data k = r.msg.getD k 0 := by
  unfold CRecv.ofReceived
  rw [toInt_of_le small]
  refine ⟨rfl, ?_⟩
  cases r.msg with
  | nil => exact ⟨rfl, fun k inside => by cases inside⟩
  | cons byte msg =>
      have positive : ((byte :: msg).length : Int) > 0 := by
        simp only [List.length_cons]
        omega
      dsimp only
      rw [if_pos positive]
      refine ⟨rfl, fun k inside => ?_⟩
      exact if_pos (Int.ofNat_lt.mpr inside)

theorem keepsBuffer_iff {r : Received} (small : (r.msg.length : Int) ≤ maxDatalen) :
    (CRecv.ofReceived data bytes r).KeepsBuffer ↔ r.msg.length ≤ bytes := by
  obtain ⟨ret, written, _⟩ := ofReceived_eq data bytes small
  rw [CRecv.KeepsBuffer, ret, written]
  constructor
  · rintro ⟨inside, _⟩
    by_contra more
    have past := inside ⟨bytes, bytes⟩ (SPoll.mem_span.mpr ⟨rfl, by omega, by simp; omega⟩)
    exact Nat.lt_irrefl _ past
  · intro fits
    have inside : ∀ a ∈ SPoll.span bytes 0 r.msg.length, a.InBounds := by
      intro a member
      obtain ⟨limit, _, high⟩ := SPoll.mem_span.mp member
      rw [Access.InBounds, limit]
      omega
    refine ⟨inside, ?_⟩
    rw [List.filter_eq_self.mpr fun a member => decide_eq_true (inside a member)]
    simp [SPoll.span]

/-- What `recv` returns is the first deliverable message of the queue. -/
theorem recv_first {envs : Nat → StepEnv} (orderly : s.Orderly serverIP serverPort)
    {out : Option Received} {bus : SBus} {rest : List SMsg}
    (call : s.bus.recv envs s.inq = some (out, bus, rest)) :
    out.map Received.smsg = s.inq.find? (SMsg.Deliverable serverIP serverPort) ∧
      ∀ r ∈ out, r.msg = r.smsg.msg := by
  obtain ⟨b, inq, received⟩ := s
  obtain ⟨placed, sound, counted⟩ := orderly
  dsimp only at placed sound counted call ⊢
  induction inq generalizing b envs with
  | nil =>
      obtain ⟨rfl, _⟩ := Prod.mk.inj (Option.some.inj call)
      exact ⟨rfl, fun r member => by cases member⟩
  | cons smsg inq ih =>
      obtain ⟨⟨peer, b', actions⟩, processed, call⟩ := Option.bind_eq_some_iff.mp call
      have iff := SBus.processSMsg_nonneg_iff sound counted processed
      rw [placed.1, placed.2] at iff
      dsimp only at call
      split at call
      case isTrue positive =>
        obtain ⟨rfl, _⟩ := Prod.mk.inj (Option.some.inj call)
        refine ⟨?_, fun r member => ?_⟩
        · simp [iff.mp positive]
        · obtain rfl := Option.some.inj member
          rfl
      case isFalse negative =>
        obtain ⟨changes, same⟩ := SBus.processSMsg_any_changes sound processed
        have placed' : b'.serverIP = serverIP ∧ b'.serverPort = serverPort := by
          rw [same]
          exact placed
        have passed : ¬ smsg.Deliverable serverIP serverPort := mt iff.mpr negative
        obtain ⟨first, content⟩ := ih b' call placed' (sound.changes changes)
          (counted.changes sound changes)
        exact ⟨by simpa [passed] using first, content⟩

theorem length_recvfrom {n : Nat} {sock : Sock} {b : CString}
    (read : sock.recvfrom n = .bytes b) : b.length ≤ n := by
  unfold Sock.recvfrom at read
  split at read
  case h_1 wire eof remote =>
    split at read
    · cases read
      exact Nat.zero_le n
    · cases read
  case h_2 | h_4 =>
    cases read
    exact List.length_take_le n _
  case h_3 | h_5 => cases read

/-- A body that `nextMsg` returns fits the buffer it was read with, so what is queued
is no longer than `MAX_DATALEN`. -/
theorem length_nextMsg {len : Int} {sock : Sock} {late later : Nat} {msgtag : Int} {ip : IP}
    {port : Port} {body : CString}
    (read : (nextMsg len sock late later).1 = .message msgtag ip port body) :
    (body.length : Int) ≤ len := by
  unfold nextMsg at read
  split at read
  case isTrue nothing => cases read
  case isFalse some =>
    split at read
    case h_1 | h_2 => cases read
    case h_3 head =>
      split at read
      case isTrue short => cases read
      case isFalse long =>
        split at read
        case isTrue closed => cases read
        case isFalse header =>
          dsimp only at read
          split at read
          case isTrue negative => cases read
          case isFalse size =>
            split at read
            case isTrue big => cases read
            case isFalse fits =>
              split at read
              case h_1 | h_2 => cases read
              case h_3 peeked =>
                split at read
                case isTrue part => cases read
                case isFalse whole =>
                  split at read
                  case h_1 | h_2 => cases read
                  case h_3 buf extracted =>
                    have taken := length_recvfrom extracted
                    split at read
                    case isTrue part => cases read
                    case isFalse all =>
                      simp only [Next.message.injEq] at read
                      obtain ⟨_, _, _, rfl⟩ := read
                      rw [List.length_drop]
                      omega

/-- For every call of an instance, whatever it has been through: nothing is written
past the buffer and the result counts bytes that are in it, if and only if the body of
the first message that is for the application fits the buffer. -/
theorem sbusRecv_keeps_iff {mcsock : SocketType} {events : List Inbox.Event}
    (run : Run (Det Inbox.step) (.start serverIP serverPort mcsock) events s)
    (bodies : ∀ smsg ∈ s.inq, (smsg.msg.length : Int) ≤ maxDatalen)
    {envs : Nat → StepEnv} {out : Option CRecv} {bus : SBus} {rest : List SMsg}
    (call : s.bus.sbusRecv envs data bytes s.inq = some (out, bus, rest)) :
    (∀ r ∈ out, r.KeepsBuffer) ↔
      ∀ smsg ∈ s.inq.find? (SMsg.Deliverable serverIP serverPort), smsg.msg.length ≤ bytes := by
  have orderly := run.invariant (Inbox.orderly_start mcsock) fun _ _ _ orderly taken =>
    orderly.step taken
  obtain ⟨⟨received, bus', rest'⟩, returned, eq⟩ := Option.map_eq_some_iff.mp call
  obtain ⟨rfl, _⟩ := Prod.mk.inj eq
  obtain ⟨first, content⟩ := recv_first orderly returned
  rw [← first]
  cases received with
  | none => simp
  | some r =>
      have body : r.msg = r.smsg.msg := content r rfl
      have member : r.smsg ∈ s.inq := List.mem_of_find?_eq_some first.symm
      have small := bodies r.smsg member
      rw [← body] at small
      simpa [← body] using keepsBuffer_iff small

/-- A user message behind a search for a name, in a buffer that it fills. -/
theorem sbusRecv_keeps_iff_search_first :
    ∃ s, Run (Det Inbox.step) (.start 1 10 4)
        [.push ⟨sbusFind, 2, 20, 4, [97, 98, 99], false⟩, .push ⟨5, 2, 20, 4, [65, 66], false⟩] s ∧
      ∃ out bus rest,
        s.bus.sbusRecv (fun _ => Inbox.quietStep) (fun _ => 0) 2 s.inq = some (out, bus, rest) ∧
        ((∀ r ∈ out, r.KeepsBuffer) ↔
          ∀ smsg ∈ s.inq.find? (SMsg.Deliverable 1 10), smsg.msg.length ≤ 2) := by
  have run := run_det_iff.mpr (rfl : [Inbox.Event.push ⟨sbusFind, 2, 20, 4, [97, 98, 99], false⟩,
    .push ⟨5, 2, 20, 4, [65, 66], false⟩].foldlM Inbox.step (.start 1 10 4) = some _)
  refine ⟨_, run, _, _, _, rfl, ?_⟩
  exact sbusRecv_keeps_iff run (by decide)
    (rfl : SBus.sbusRecv _ (fun _ => Inbox.quietStep) (fun _ => 0) 2 _ = some _)

/-- Five bytes are written into a buffer of four. -/
theorem long_message_overruns :
    ¬ ∀ serverIP serverPort mcsock events s envs data bytes out bus rest,
      Run (Det Inbox.step) (.start serverIP serverPort mcsock) events s →
      (∀ smsg ∈ s.inq, (smsg.msg.length : Int) ≤ maxDatalen) →
      s.bus.sbusRecv envs data bytes s.inq = some (out, bus, rest) →
      ∀ r ∈ out, r.KeepsBuffer := by
  intro always
  have run := run_det_iff.mpr
    (rfl : [Inbox.Event.push ⟨5, 2, 20, 4, [72, 101, 108, 108, 111], false⟩].foldlM Inbox.step
      (.start 1 10 4) = some _)
  have keeps := always 1 10 4 _ _ (fun _ => Inbox.quietStep) (fun _ => 0) 4 _ _ _ run (by decide)
    rfl _ rfl
  exact absurd (keeps.1 ⟨4, 4⟩ (by decide)) (by decide)

end LibSBus
