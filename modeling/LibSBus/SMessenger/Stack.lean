import LibSBus.SMessenger.Recv

/-!
The stack of a call of `recv`. For every entry it reads it takes room for the longest
body with `alloca`, inside the loop, and what `alloca` gives is kept until the function
returns: entries that have nothing complete to read yet cost as much as others, in every
pass again. `nextMsg` takes room for one frame and gives it back when it returns. A call
that needs more than there is has no result.
-/

namespace LibSBus

open Lib

/-- What `nextMsg` allocates: room for the frame, once its header is there and announces
no more than the buffer holds. -/
def nextMsgAlloca (len : Int) (s : Sock) : Nat :=
  match s.recvfrom hdrlen with
  | .bytes head =>
      let (_, _, datasize) := unpackhdr head
      if 0 < len ∧ hdrlen ≤ head.length ∧ 0 ≤ datasize ∧ datasize ≤ len then
        hdrlen + datasize.toNat
      else 0
  | _ => 0

namespace SMessenger

variable {m m' : SMessenger} {stack : Nat} {fd : SocketType} {look : Look}
  {entries seen rest : List (SocketType × Look)} {passes before after : List (List Look)}
  {out : Option SMsg} {env : RecvEnv}

/-- The loop reads the entry when it comes to it. -/
def Readable (entry : SocketType × Look) : Prop :=
  entry.1 ≠ 0 ∧ ¬ entry.2.Problem ∧ entry.2.has POLLIN

instance : DecidablePred Readable := fun _ => inferInstanceAs (Decidable (_ ∧ _))

/-- The body of the loop, with the stack that is left. -/
def visitWithin (stack : Nat) (m : SMessenger) (fd : SocketType) (look : Look) :
    Option (Nat × Option SMsg × SMessenger) :=
  if Readable (fd, look) then
    if maxDatalen.toNat + nextMsgAlloca maxDatalen ((m.arrive look.arrivals).sock fd) ≤ stack then
      some (stack - maxDatalen.toNat, m.visit fd look)
    else none
  else some (stack, m.visit fd look)

def passWithin (stack : Nat) (m : SMessenger) :
    List (SocketType × Look) → Option (Nat × Option SMsg × SMessenger)
  | [] => some (stack, none, m)
  | (fd, look) :: rest =>
      match m.visitWithin stack fd look with
      | none => none
      | some (stack, some msg, m) => some (stack, some msg, m)
      | some (stack, none, m) => m.passWithin stack rest

def pollsWithin (stack : Nat) (m : SMessenger) :
    List (List Look) → Option (Option SMsg × SMessenger)
  | [] => some (none, m)
  | looks :: more =>
      match m.passWithin stack (m.spoll.zip looks) with
      | none => none
      | some (_, some msg, m) => some (some msg, m)
      | some (stack, none, m) => m.pollsWithin stack more

/-- `recv` in a thread that has so much stack for it. -/
def recvWithin (stack : Nat) (m : SMessenger) (env : RecvEnv) :
    Option (Option SMsg × SMessenger) :=
  match m.listenConn env.listen with
  | (res, m) => if res < 0 then some (none, m) else m.pollsWithin stack env.passes

def nextWithin (stack : Nat) (m : SMessenger) (env : RecvEnv) : Option SMessenger :=
  (m.recvWithin stack env).map Prod.snd

/-- The entries a call comes to as long as it has no message, pass after pass. -/
def visits (m : SMessenger) (passes : List (List Look)) : List (SocketType × Look) :=
  passes.flatMap (m.spoll.zip ·)

/-- The loop comes to an entry, without having returned, that it reads; and the room
taken for it and for those read before it, with that for the frame at its head, is more
than there is. -/
def Overruns (stack : Nat) (m : SMessenger) (entries : List (SocketType × Look)) : Prop :=
  ∃ seen fd look rest, entries = seen ++ (fd, look) :: rest ∧ (m.pass seen).1 = none ∧
    Readable (fd, look) ∧
    stack < maxDatalen.toNat * (seen.countP (Readable ·) + 1) +
      nextMsgAlloca maxDatalen (((m.pass seen).2.arrive look.arrivals).sock fd)

/-- The stack is enough for the call. -/
def Fits (stack : Nat) (m : SMessenger) (env : RecvEnv) : Prop :=
  0 ≤ (m.listenConn env.listen).1 →
    ¬ Overruns stack (m.listenConn env.listen).2 ((m.listenConn env.listen).2.visits env.passes)

/-- Without a message nothing is registered and nothing removed. -/
theorem visit_spoll : (m.visit fd look).1 = none → (m.visit fd look).2.spoll = m.spoll := by
  unfold visit
  dsimp only
  split
  case isFalse passed => exact fun _ => rfl
  case isTrue reported =>
    split
    case isTrue problem => exact fun silent => by cases silent
    case isFalse fine =>
      split
      case isFalse idle => exact fun _ => rfl
      case isTrue readable =>
        split
        case h_1 s error => exact fun silent => by cases silent
        case h_2 s pending => exact fun _ => rfl
        case h_3 msgtag ip port msg s message =>
          split
          case isTrue positive => exact fun silent => by cases silent
          case isFalse zero => exact fun _ => rfl

theorem pass_spoll (entries : List (SocketType × Look)) (silent : (m.pass entries).1 = none) :
    (m.pass entries).2.spoll = m.spoll := by
  induction entries generalizing m with
  | nil => rfl
  | cons entry rest ih =>
      obtain ⟨fd, look⟩ := entry
      rw [pass_cons] at silent ⊢
      split at silent
      case isTrue first =>
        rw [if_pos first]
        exact (ih silent).trans (visit_spoll first)
      case isFalse first => exact absurd silent first

theorem pass_append (m : SMessenger) (seen rest : List (SocketType × Look)) :
    m.pass (seen ++ rest) =
      if (m.pass seen).1 = none then (m.pass seen).2.pass rest else m.pass seen := by
  induction seen generalizing m with
  | nil => rfl
  | cons entry seen ih =>
      obtain ⟨fd, look⟩ := entry
      rw [List.cons_append, pass_cons, pass_cons]
      by_cases first : (m.visit fd look).1 = none
      · rw [if_pos first, if_pos first]
        exact ih _
      · rw [if_neg first, if_neg first, if_neg first]

theorem visits_cons (m : SMessenger) (looks : List Look) (more : List (List Look)) :
    m.visits (looks :: more) = m.spoll.zip looks ++ m.visits more := rfl

/-- The loop of a call is one pass over all the entries it comes to. -/
theorem polls_eq_pass (passes : List (List Look)) : m.polls passes = m.pass (m.visits passes) := by
  induction passes generalizing m with
  | nil => rfl
  | cons looks more ih =>
      rw [polls_cons, visits_cons, pass_append]
      split
      case isTrue silent => rw [ih, visits, pass_spoll _ silent, visits]
      case isFalse given => rfl

theorem polls_append (m : SMessenger) (before after : List (List Look)) :
    m.polls (before ++ after) =
      if (m.polls before).1 = none then (m.polls before).2.polls after else m.polls before := by
  induction before generalizing m with
  | nil => rfl
  | cons looks before ih =>
      rw [List.cons_append, polls_cons, polls_cons]
      by_cases first : (m.pass (m.spoll.zip looks)).1 = none
      · rw [if_pos first, if_pos first]
        exact ih _
      · rw [if_neg first, if_neg first, if_neg first]

theorem visitWithin_cases (stack : Nat) (m : SMessenger) (fd : SocketType) (look : Look) :
    ((Readable (fd, look) ∧ stack < maxDatalen.toNat +
        nextMsgAlloca maxDatalen ((m.arrive look.arrivals).sock fd)) ∧
      m.visitWithin stack fd look = none) ∨
    (¬ (Readable (fd, look) ∧ stack < maxDatalen.toNat +
        nextMsgAlloca maxDatalen ((m.arrive look.arrivals).sock fd)) ∧
      m.visitWithin stack fd look =
        some (if Readable (fd, look) then stack - maxDatalen.toNat else stack,
          m.visit fd look)) := by
  unfold visitWithin
  by_cases readable : Readable (fd, look)
  · rw [if_pos readable, if_pos readable, and_iff_right readable]
    split
    case isTrue fits => exact .inr ⟨Nat.not_lt.mpr fits, rfl⟩
    case isFalse full => exact .inl ⟨Nat.lt_of_not_le full, rfl⟩
  · rw [if_neg readable, if_neg readable]
    exact .inr ⟨fun beyond => readable beyond.1, rfl⟩

/-- What an entry takes is as good as not there for those behind it. -/
theorem room_cons (entry : SocketType × Look) (seen : List (SocketType × Look)) (frame : Nat) :
    stack < maxDatalen.toNat * ((entry :: seen).countP (Readable ·) + 1) + frame ↔
      (if Readable entry then stack - maxDatalen.toNat else stack) <
        maxDatalen.toNat * (seen.countP (Readable ·) + 1) + frame := by
  have some_room : 0 < maxDatalen.toNat := by decide
  rw [List.countP_cons, Nat.mul_add, Nat.mul_add, Nat.mul_add]
  by_cases here : Readable entry
  · simp only [here, decide_true, if_true]
    omega
  · simp only [here, decide_false, Bool.false_eq_true, if_false]
    omega

/-- The first entry overruns the stack, or a later one does what the first leaves of it. -/
theorem overruns_cons :
    Overruns stack m ((fd, look) :: rest) ↔
      (Readable (fd, look) ∧ stack < maxDatalen.toNat +
        nextMsgAlloca maxDatalen ((m.arrive look.arrivals).sock fd)) ∨
      ((m.visit fd look).1 = none ∧
        Overruns (if Readable (fd, look) then stack - maxDatalen.toNat else stack)
          (m.visit fd look).2 rest) := by
  constructor
  · rintro ⟨seen, fd', look', later, eq, silent, readable, beyond⟩
    cases seen with
    | nil =>
        obtain ⟨head, _⟩ := List.cons.inj eq
        obtain ⟨rfl, rfl⟩ := Prod.mk.inj head
        rw [List.countP_nil, Nat.zero_add, Nat.mul_one] at beyond
        exact .inl ⟨readable, beyond⟩
    | cons entry seen =>
        obtain ⟨rfl, rfl⟩ := List.cons.inj eq
        rw [pass_cons] at silent beyond
        split at silent
        case isFalse given => exact absurd silent given
        case isTrue first =>
          rw [if_pos first, room_cons] at beyond
          exact .inr ⟨first, seen, fd', look', later, rfl, silent, readable, beyond⟩
  · rintro (⟨readable, beyond⟩ | ⟨first, seen, fd', look', later, rfl, silent, readable, beyond⟩)
    · refine ⟨[], fd, look, rest, rfl, rfl, readable, ?_⟩
      rw [List.countP_nil, Nat.zero_add, Nat.mul_one]
      exact beyond
    · refine ⟨(fd, look) :: seen, fd', look', later, rfl, ?_, readable, ?_⟩
      · rw [pass_cons, if_pos first]
        exact silent
      · rw [pass_cons, if_pos first, room_cons]
        exact beyond

/-- With enough stack a pass does what it does whatever the stack is; otherwise it has no
result. -/
theorem passWithin_cases (stack : Nat) (m : SMessenger) (entries : List (SocketType × Look)) :
    (Overruns stack m entries ∧ m.passWithin stack entries = none) ∨
      (¬ Overruns stack m entries ∧
        ∃ left, m.passWithin stack entries = some (left, m.pass entries)) := by
  induction entries generalizing stack m with
  | nil =>
      refine .inr ⟨?_, stack, rfl⟩
      rintro ⟨seen, fd, look, rest, eq, _⟩
      simp at eq
  | cons entry rest ih =>
      obtain ⟨fd, look⟩ := entry
      rw [overruns_cons, passWithin, pass]
      rcases visitWithin_cases stack m fd look with ⟨beyond, eq⟩ | ⟨fits, eq⟩
      · rw [eq]
        exact .inl ⟨.inl beyond, rfl⟩
      · rw [eq, or_iff_right fits]
        rcases m.visit fd look with ⟨_ | msg, m'⟩
        · rw [and_iff_right rfl]
          exact ih _ m'
        · refine .inr ⟨?_, _, rfl⟩
          rintro ⟨silent, _⟩
          cases silent

theorem passWithin_append (stack : Nat) (m : SMessenger)
    (seen rest : List (SocketType × Look)) :
    m.passWithin stack (seen ++ rest) =
      match m.passWithin stack seen with
      | none => none
      | some (stack, some msg, m) => some (stack, some msg, m)
      | some (stack, none, m) => m.passWithin stack rest := by
  induction seen generalizing stack m with
  | nil => rfl
  | cons entry seen ih =>
      obtain ⟨fd, look⟩ := entry
      rw [List.cons_append, passWithin, passWithin]
      rcases m.visitWithin stack fd look with _ | ⟨left, _ | msg, m'⟩
      · rfl
      · exact ih left m'
      · rfl

/-- With a stack, too, the loop of a call is one pass. -/
theorem pollsWithin_eq (stack : Nat) (m : SMessenger) (passes : List (List Look)) :
    m.pollsWithin stack passes = (m.passWithin stack (m.visits passes)).map Prod.snd := by
  induction passes generalizing stack m with
  | nil => rfl
  | cons looks more ih =>
      rw [pollsWithin, visits_cons, passWithin_append]
      rcases passWithin_cases stack m (m.spoll.zip looks) with ⟨_, eq⟩ | ⟨_, left, eq⟩
      · rw [eq]
        rfl
      · have kept := pass_spoll (m := m) (m.spoll.zip looks)
        rw [eq]
        rcases passed : m.pass (m.spoll.zip looks) with ⟨_ | msg, m'⟩
        · rw [passed] at kept
          show m'.pollsWithin left more = _
          rw [ih, visits, show m'.spoll = m.spoll from kept rfl, visits]
        · rfl

/-- A call has the result of `recv` if and only if its stack is enough. -/
theorem recvWithin_cases (stack : Nat) (m : SMessenger) (env : RecvEnv) :
    (¬ Fits stack m env ∧ m.recvWithin stack env = none) ∨
      (Fits stack m env ∧ m.recvWithin stack env = some (m.recv env)) := by
  unfold Fits recvWithin recv
  rcases m.listenConn env.listen with ⟨res, m'⟩
  dsimp only
  by_cases failed : res < 0
  · rw [if_pos failed, if_pos failed]
    exact .inr ⟨fun ready => absurd failed (Int.not_lt.mpr ready), rfl⟩
  · rw [if_neg failed, if_neg failed, pollsWithin_eq, polls_eq_pass,
      forall_prop_of_true (Int.not_lt.mp failed)]
    rcases passWithin_cases stack m' (m'.visits env.passes) with ⟨beyond, eq⟩ | ⟨fits, left, eq⟩
    · rw [eq]
      exact .inl ⟨not_not.mpr beyond, rfl⟩
    · rw [eq]
      exact .inr ⟨fits, rfl⟩

theorem recvWithin_eq_some_iff : m.recvWithin stack env = some (out, m') ↔
    Fits stack m env ∧ m.recv env = (out, m') := by
  rcases recvWithin_cases stack m env with ⟨beyond, eq⟩ | ⟨fits, eq⟩
  · rw [eq]
    exact iff_of_false (by simp) fun both => beyond both.1
  · rw [eq, and_iff_right fits, Option.some_inj]

end SMessenger

end LibSBus
