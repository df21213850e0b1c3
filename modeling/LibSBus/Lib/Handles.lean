import Mathlib.Logic.Function.Basic

/-!
Handles that are given out again. A handle is open on at most one connection at
a time. What happens on connections is put in a queue, and closing one puts a
notice there; the handle may be open on another connection before anyone reads
it.

A reader that has read none of the queue still takes a handle for the connection
of the first notice about it (`standsFor`). If notices are queued in order, only
reading the notice of a closing changes what a handle stands for, and a handle
without such a notice stands for the connection it is open on.
-/

namespace LibSBus.Lib

variable {η γ : Type*} [DecidableEq η]

structure Notice (η γ : Type*) where
  handle : η
  conn : γ
  closing : Bool

/-- What a handle stands for to a reader that has the queue before it. -/
def standsFor (opened : η → Option γ) : List (Notice η γ) → η → Option γ
  | [], h => opened h
  | q :: qs, h => if q.handle = h then some q.conn else standsFor opened qs h

/-- After a notice that closes nothing the handle stands for the same connection. -/
def InOrder (opened : η → Option γ) : List (Notice η γ) → Prop
  | [] => True
  | q :: qs =>
      (q.closing = false → standsFor opened qs q.handle = some q.conn) ∧ InOrder opened qs

/-- No closing of the handle is in the queue. -/
def Quiet (qs : List (Notice η γ)) (h : η) : Prop :=
  ∀ q ∈ qs, q.closing = true → q.handle ≠ h

variable {opened opened' : η → Option γ} {q : Notice η γ} {qs : List (Notice η γ)} {h x : η}
  {k k' : γ}

theorem InOrder.of_agree (order : InOrder opened qs)
    (agree : ∀ qs' x k, standsFor opened qs' x = some k → standsFor opened' qs' x = some k) :
    InOrder opened' qs := by
  induction qs with
  | nil => trivial
  | cons q qs ih => exact ⟨fun data => agree _ _ _ (order.1 data), ih order.2⟩

/-- Queueing a notice about an open handle changes nothing for the reader. -/
theorem standsFor_queue (open_ : opened h = some k) (closing : Bool) :
    standsFor opened (qs ++ [⟨h, k, closing⟩]) = standsFor opened qs := by
  funext x
  induction qs with
  | nil =>
      show (if h = x then some k else opened x) = opened x
      split
      case isTrue same => rw [← same, open_]
      case isFalse other => rfl
  | cons q qs ih => simp only [List.cons_append, standsFor, ih]

/-- Nor does closing it, once its notice is queued. -/
theorem standsFor_close (open_ : opened h = some k) :
    standsFor (Function.update opened h none) (qs ++ [⟨h, k, true⟩]) = standsFor opened qs := by
  funext x
  induction qs with
  | nil =>
      show (if h = x then some k else Function.update opened h none x) = opened x
      split
      case isTrue same => rw [← same, open_]
      case isFalse other => exact Function.update_of_ne (fun same => other same.symm) _ _
  | cons q qs ih => simp only [List.cons_append, standsFor, ih]

/-- Opening a closed handle takes no connection from the reader. -/
theorem standsFor_open (closed : opened h = none) (k' : γ)
    (stands : standsFor opened qs x = some k) :
    standsFor (Function.update opened h (some k')) qs x = some k := by
  induction qs with
  | nil =>
      have other : x ≠ h := by
        rintro rfl
        rw [standsFor, closed] at stands
        cases stands
      rw [standsFor, Function.update_of_ne other]
      exact stands
  | cons q qs ih =>
      unfold standsFor at stands ⊢
      split at stands
      case isTrue same => rwa [if_pos same]
      case isFalse other => rw [if_neg other, ih stands]

theorem InOrder.queue (order : InOrder opened qs) (open_ : opened h = some k) (closing : Bool) :
    InOrder opened (qs ++ [⟨h, k, closing⟩]) := by
  induction qs with
  | nil => exact ⟨fun _ => open_, trivial⟩
  | cons q qs ih =>
      exact ⟨fun data => (congrFun (standsFor_queue open_ closing) _).trans (order.1 data),
        ih order.2⟩

theorem InOrder.close (order : InOrder opened qs) (open_ : opened h = some k) :
    InOrder (Function.update opened h none) (qs ++ [⟨h, k, true⟩]) := by
  induction qs with
  | nil => exact ⟨fun data => absurd data Bool.noConfusion, trivial⟩
  | cons q qs ih =>
      exact ⟨fun data => (congrFun (standsFor_close open_) _).trans (order.1 data), ih order.2⟩

theorem InOrder.open (order : InOrder opened qs) (closed : opened h = none) (k' : γ) :
    InOrder (Function.update opened h (some k')) qs :=
  order.of_agree fun _ _ _ stands => standsFor_open closed k' stands

/-- A handle whose closing is not queued stands for what it is open on. -/
theorem InOrder.standsFor_eq (order : InOrder opened qs) (quiet : Quiet qs h) :
    standsFor opened qs h = opened h := by
  induction qs with
  | nil => rfl
  | cons q qs ih =>
      have rest := ih order.2 fun other mem => quiet other (List.mem_cons_of_mem q mem)
      rw [standsFor]
      split
      case isTrue same =>
        have data : q.closing = false := by
          cases closing : q.closing with
          | false => rfl
          | true => exact absurd same (quiet q List.mem_cons_self closing)
        rw [← rest, ← same, order.1 data]
      case isFalse other => exact rest

/-- Reading a notice that closes nothing changes nothing. -/
theorem InOrder.read (order : InOrder opened (q :: qs)) (data : q.closing = false) :
    standsFor opened (q :: qs) = standsFor opened qs := by
  funext x
  rw [standsFor]
  split
  case isTrue same => rw [← same, order.1 data]
  case isFalse other => rfl

end LibSBus.Lib
