import LibSBus.SPoll.Contents

/-!
Calls on the poll array that stay inside its block. A call has a result here if it
fails no assertion and touches only slots of the block, and then the array stands
for the list that the call makes. `poll` writes beside the descriptors and changes
none of them.
-/

namespace LibSBus

open Lib

namespace SPoll

variable {p q : SPoll} {op : Op} {ret : Int}

/-- A call that fails no assertion and touches only slots of the block. -/
def inside (p : SPoll) (op : Op) : Option (Int × SPoll) :=
  match p.exec op with
  | none => none
  | some (ret, q, touched) => if ∀ a ∈ touched, a.InBounds then some (ret, q) else none

/-- What `poll` writes beside each of the first `size` descriptors. -/
def report (p : SPoll) (revents : Nat → BitVec 16) : SPoll :=
  { p with
    fds := fun k => if (k : Int) < p.size then { p.fds k with revents := revents k } else p.fds k }

/-- `SPoll::doPoll`, when `poll` has found something. -/
def doPoll (p : SPoll) (revents : Nat → BitVec 16) : Option SPoll :=
  if p.Asserts then some (p.report revents) else none

/-- A call the interface does not allow fails an assertion. -/
theorem allowed_of_exec {result : Int × SPoll × List Access} (run : p.exec op = some result) :
    op.Allowed := by
  cases op with
  | add moved fd events =>
      obtain ⟨accepted, _⟩ := Option.ite_none_left_eq_some.mp run
      exact ⟨(not_not.mp accepted).1, (not_not.mp accepted).2.1⟩
  | remove fd =>
      obtain ⟨accepted, _⟩ := Option.ite_none_left_eq_some.mp run
      exact (not_not.mp accepted).2

theorem place_capacity {fd : Int} {events : BitVec 16} {touched : List Access} :
    (p.place fd events touched).2.1.capacity = p.capacity := by
  unfold place
  split <;> rfl

/-- The block never shrinks. -/
theorem capacity_le_exec {touched : List Access} (run : p.exec op = some (ret, q, touched)) :
    p.capacity ≤ q.capacity := by
  cases op with
  | add moved fd events =>
      obtain ⟨_, run⟩ := Option.ite_none_left_eq_some.mp run
      split at run
      case isTrue full =>
        have same := congrArg (fun r => r.2.1.capacity) (Option.some.inj run)
        rw [place_capacity] at same
        exact same ▸ Nat.le_add_left p.capacity growSize
      case isFalse room =>
        have same := congrArg (fun r => r.2.1.capacity) (Option.some.inj run)
        rw [place_capacity] at same
        exact Nat.le_of_eq same
  | remove fd =>
      obtain ⟨_, run⟩ := Option.ite_none_left_eq_some.mp run
      split at run
      case h_1 i seen found =>
        obtain ⟨⟨q', moved⟩, removed, eq⟩ := Option.map_eq_some_iff.mp run
        obtain ⟨_, removed⟩ := Option.ite_none_left_eq_some.mp removed
        obtain ⟨_, rfl, _⟩ := by simpa using eq
        split at removed
        all_goals
          obtain ⟨rfl, _⟩ := Prod.mk.inj (Option.some.inj removed)
          exact Nat.le_refl p.capacity
      case h_2 seen missing =>
        obtain ⟨_, rfl, _⟩ := by simpa using run
        exact Nat.le_refl p.capacity

/-- What a call that goes through leaves. -/
theorem inside_spec (wf : p.WellFormed) (run : p.inside op = some (ret, q)) :
    ret = 0 ∧ op.Allowed ∧ q.WellFormed ∧ q.pairs = callOnList p.pairs op ∧
      p.capacity ≤ q.capacity := by
  unfold inside at run
  split at run
  case h_1 failed => cases run
  case h_2 ret' q' touched called =>
    obtain ⟨bounds, eq⟩ := Option.ite_none_right_eq_some.mp run
    obtain ⟨rfl, rfl⟩ := Prod.mk.inj (Option.some.inj eq)
    have allowed := allowed_of_exec called
    have stays : p.StaysInside op := by
      rintro result run a mem
      obtain rfl := Option.some.inj (called.symm.trans run)
      exact bounds a mem
    obtain ⟨zero, pairs⟩ := exec_pairs wf allowed called
    have next : Det next p op q' := by rw [Det, SPoll.next, called]; rfl
    exact ⟨zero, allowed, wellFormed_next (good_of_staysInside wf allowed stays) next, pairs,
      capacity_le_exec called⟩

/-- A call that is allowed goes through, unless it removes from a full array. -/
theorem inside_of_good (op : Op) (wf : p.WellFormed) (allowed : op.Allowed)
    (fine : ¬ p.RemovesInsideFull op) : ∃ q, p.inside op = some (0, q) := by
  obtain ⟨ret, q, touched, run, bounds, _⟩ := (good_iff wf allowed).mpr fine
  obtain ⟨rfl, _⟩ := exec_pairs wf allowed run
  exact ⟨q, by simp only [inside, run, if_pos bounds]⟩

theorem report_revents (revents : Nat → BitVec 16) {k : Nat} (used : (k : Int) < p.size) :
    ((p.report revents).fds k).revents = revents k := by
  simp only [report, if_pos used]

/-- `poll` changes no descriptor. -/
theorem report_pairs (p : SPoll) (revents : Nat → BitVec 16) :
    (p.report revents).pairs = p.pairs := by
  apply pairs_congr (p := p) (q := p.report revents) rfl
  intro k used
  simp only [report, if_pos used]
  rfl

theorem WellFormed.report (wf : p.WellFormed) (revents : Nat → BitVec 16) :
    (p.report revents).WellFormed where
  asserts := wf.asserts
  used := by
    intro k used
    have used : (k : Int) < p.size := used
    simp only [SPoll.report, if_pos used]
    exact wf.used k used
  clear := by
    intro k tail room
    have tail : ¬ (k : Int) < p.size := Int.not_lt.mpr tail
    simp only [SPoll.report, if_neg tail]
    exact wf.clear k (Int.not_lt.mp tail) room

end SPoll

end LibSBus
