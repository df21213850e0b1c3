import LibSBus.SMessenger.Frames
import LibSBus.Lib.Runs

/-!
What a visit of one entry of the table can do, and runs of `recv` calls. An
entry that is not reported, or reported for output only, is passed over; one
with a problem is dropped; otherwise `nextMsg` decides.
-/

namespace LibSBus

open Lib

theorem Look.revents_ne_zero {look : Look} {flag : BitVec 16} (h : look.has flag) :
    look.revents ≠ 0 := by
  intro zero
  rw [Look.has, zero] at h
  exact h BitVec.zero_and

@[simp] theorem Sock.arrive_zero (s : Sock) : s.arrive 0 = s := by
  cases s <;> simp [arrive]

namespace SMessenger

variable {m m' : SMessenger} {fd other : SocketType} {look : Look}

@[simp] theorem arrive_sock (m : SMessenger) (arrivals : SocketType → Nat) (fd : SocketType) :
    (m.arrive arrivals).sock fd = (m.sock fd).arrive (arrivals fd) := rfl

@[simp] theorem arrive_mcsock (m : SMessenger) (arrivals : SocketType → Nat) :
    (m.arrive arrivals).mcsock = m.mcsock := rfl

@[simp] theorem setSock_self (m : SMessenger) (fd : SocketType) (s : Sock) :
    (m.setSock fd s).sock fd = s := by simp [setSock]

theorem setSock_of_ne (m : SMessenger) (s : Sock) (ne : other ≠ fd) :
    (m.setSock fd s).sock other = m.sock other := by simp [setSock, ne]

@[simp] theorem setSock_mcsock (m : SMessenger) (fd : SocketType) (s : Sock) :
    (m.setSock fd s).mcsock = m.mcsock := rfl

theorem visit_problem (used : fd ≠ 0) (problem : look.Problem) :
    m.visit fd look = (some (SMsg.ofError errcodePeerDisconnected 0 0 fd),
      (m.arrive look.arrivals).socketErrorHandling fd look.reopened) := by
  have reported : look.revents ≠ 0 := by
    rcases problem with h | h | h <;> exact Look.revents_ne_zero h
  rw [visit, if_pos ⟨used, reported⟩, if_pos problem]

theorem visit_idle (idle : fd = 0 ∨ (¬ look.Problem ∧ ¬ look.has POLLIN)) :
    m.visit fd look = (none, m.arrive look.arrivals) := by
  unfold visit
  split
  case isTrue reported =>
    rcases idle with zero | ⟨fine, nothing⟩
    · exact absurd zero reported.1
    · rw [if_neg fine, if_neg nothing]
  case isFalse => rfl

section Readable

variable {s : Sock} (used : 0 < fd) (fine : ¬ look.Problem) (readable : look.has POLLIN)

include used fine readable

theorem visit_error
    (read : nextMsg maxDatalen ((m.arrive look.arrivals).sock fd) look.late look.later =
      (.error, s)) :
    m.visit fd look = (some (SMsg.ofError errcodePeerDisconnected 0 0 fd),
      ((m.arrive look.arrivals).setSock fd s).socketErrorHandling fd look.reopened) := by
  simp only [visit, if_pos (⟨Int.ne_of_gt used, Look.revents_ne_zero readable⟩ :
    fd ≠ 0 ∧ look.revents ≠ 0), if_neg fine, if_pos readable, read]

theorem visit_pending
    (read : nextMsg maxDatalen ((m.arrive look.arrivals).sock fd) look.late look.later =
      (.pending, s)) :
    m.visit fd look = (none, (m.arrive look.arrivals).setSock fd s) := by
  simp only [visit, if_pos (⟨Int.ne_of_gt used, Look.revents_ne_zero readable⟩ :
    fd ≠ 0 ∧ look.revents ≠ 0), if_neg fine, if_pos readable, read]

theorem visit_message {msgtag : Int} {ip : IP} {port : Port} {msg : CString}
    (read : nextMsg maxDatalen ((m.arrive look.arrivals).sock fd) look.late look.later =
      (.message msgtag ip port msg, s)) :
    m.visit fd look = (some { msgtag, ip, port, socket := fd, msg, error := false },
      (m.arrive look.arrivals).setSock fd s) := by
  simp only [visit, if_pos (⟨Int.ne_of_gt used, Look.revents_ne_zero readable⟩ :
    fd ≠ 0 ∧ look.revents ≠ 0), if_neg fine, if_pos readable, read, gt_iff_lt, if_pos used]

end Readable

theorem pass_cons (m : SMessenger) (fd : SocketType) (look : Look)
    (rest : List (SocketType × Look)) :
    m.pass ((fd, look) :: rest) =
      if (m.visit fd look).1 = none then (m.visit fd look).2.pass rest else m.visit fd look := by
  rw [pass]
  rcases m.visit fd look with ⟨_ | msg, m'⟩ <;> simp

theorem polls_cons (m : SMessenger) (looks : List Look) (more : List (List Look)) :
    m.polls (looks :: more) =
      if (m.pass (m.spoll.zip looks)).1 = none then (m.pass (m.spoll.zip looks)).2.polls more
      else m.pass (m.spoll.zip looks) := by
  rw [polls]
  rcases m.pass (m.spoll.zip looks) with ⟨_ | msg, m'⟩ <;> simp

section Keeps

variable {I : SMessenger → Prop} (one : ∀ m fd look, I m → I (m.visit fd look).2)

include one

/-- What every visit keeps, a pass keeps, and so does the loop. -/
theorem pass_keeps (entries : List (SocketType × Look)) (start : I m) :
    I (m.pass entries).2 := by
  induction entries generalizing m with
  | nil => exact start
  | cons entry rest ih =>
      obtain ⟨fd, look⟩ := entry
      have first := one m fd look start
      rw [pass]
      rcases visited : m.visit fd look with ⟨_ | msg, m'⟩
      · rw [visited] at first
        exact ih first
      · rw [visited] at first
        exact first

theorem polls_keeps (passes : List (List Look)) (start : I m) : I (m.polls passes).2 := by
  induction passes generalizing m with
  | nil => exact start
  | cons looks more ih =>
      have first := pass_keeps one (m.spoll.zip looks) start
      rw [polls]
      rcases visited : m.pass (m.spoll.zip looks) with ⟨_ | msg, m'⟩
      · rw [visited] at first
        exact ih first
      · rw [visited] at first
        exact first

end Keeps

/-- Calls of `recv` one after the other. -/
def Next (m : SMessenger) (env : RecvEnv) (m' : SMessenger) : Prop := (m.recv env).2 = m'

end SMessenger

end LibSBus
