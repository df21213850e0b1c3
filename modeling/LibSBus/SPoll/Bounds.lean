import LibSBus.SPoll
import LibSBus.Lib.Runs
import Mathlib.Tactic.Common

/-!
Which slots the poll array touches. The loops of `add` and `remove` stay below
the capacity and `grow` clears exactly the slots it gains. `removeit` moves one
slot too many: it reads slot `size`, which exists unless the array is full. So
a run stays inside its blocks, and keeps the zero tail that `add` relies on,
exactly as long as no descriptor is removed from the inside of a full array.
-/

namespace LibSBus.SPoll

open Lib

theorem mem_span {limit first n : Nat} {a : Access} :
    a ∈ span limit first n ↔ a.limit = limit ∧ first ≤ a.index ∧ a.index < first + n := by
  obtain ⟨index, lim⟩ := a
  simp only [span, List.mem_map, List.mem_range'_1, Access.mk.injEq]
  constructor
  · rintro ⟨k, inside, rfl, rfl⟩
    exact ⟨rfl, inside⟩
  · rintro ⟨rfl, inside⟩
    exact ⟨index, inside, rfl, rfl⟩

/-- A scan reads slots of its range only, and stops at the first match. -/
theorem scan_spec (fds : Nat → PollFd) (fd : Int) (limit n i : Nat) :
    (∀ a ∈ (scan fds fd limit n i).2,
      a.limit = limit ∧ i ≤ a.index ∧ a.index < i + n) ∧
    (∀ k, (scan fds fd limit n i).1 = some k →
      i ≤ k ∧ k < i + n ∧ (fds k).fd = fd ∧ ∀ j, i ≤ j → j < k → (fds j).fd ≠ fd) ∧
    ((scan fds fd limit n i).1 = none → ∀ j, i ≤ j → j < i + n → (fds j).fd ≠ fd) := by
  induction n generalizing i with
  | zero =>
      refine ⟨by simp [scan], by simp [scan], ?_⟩
      intro _ j low high
      omega
  | succ n ih =>
      by_cases here : (fds i).fd = fd
      · have found : scan fds fd limit (n + 1) i = (some i, [⟨i, limit⟩]) := by
          simp [scan, here]
        rw [found]
        refine ⟨by simp, ?_, by simp⟩
        intro k hk
        obtain rfl : i = k := Option.some.inj hk
        exact ⟨Nat.le_refl i, by omega, here, fun j low high => by omega⟩
      · have passed : scan fds fd limit (n + 1) i =
            ((scan fds fd limit n (i + 1)).1,
              ⟨i, limit⟩ :: (scan fds fd limit n (i + 1)).2) := by
          simp [scan, here]
        obtain ⟨reads, hit, miss⟩ := ih (i + 1)
        rw [passed]
        refine ⟨?_, ?_, ?_⟩
        · intro a member
          rcases List.mem_cons.mp member with rfl | later
          · exact ⟨rfl, Nat.le_refl i, by simp⟩
          · obtain ⟨hl, low, high⟩ := reads a later
            exact ⟨hl, by omega, by omega⟩
        · intro k hk
          obtain ⟨low, high, same, before⟩ := hit k hk
          refine ⟨by omega, by omega, same, fun j hj hjk => ?_⟩
          by_cases first : j = i
          · rwa [first]
          · exact before j (by omega) hjk
        · intro none j low high
          by_cases first : j = i
          · rwa [first]
          · exact miss none j (by omega) (by omega)

theorem create_wellFormed (beyond : Nat → PollFd) : (create beyond).WellFormed where
  asserts := ⟨by simp [create], by simp [create]⟩
  used := by
    intro k inside
    simp only [create] at inside
    omega
  clear := by
    intro k _ inside
    simp only [create] at inside ⊢
    rw [if_pos inside]

/-- Growing keeps the used slots and extends the zero tail. -/
theorem grow_wellFormed {p : SPoll} (wf : p.WellFormed) (moved : Nat → PollFd) :
    (p.grow moved).1.WellFormed := by
  obtain ⟨low, high⟩ := wf.asserts
  refine ⟨⟨low, by simp only [grow]; omega⟩, ?_, ?_⟩
  · intro k inside
    have old : k < p.capacity := by simp only [grow] at inside; omega
    simp only [grow, if_pos old]
    rw [if_neg (by omega)]
    exact wf.used k inside
  · intro k tail inside
    simp only [grow] at tail inside ⊢
    by_cases gained : p.capacity ≤ k
    · rw [if_pos ⟨gained, by omega⟩]
    · rw [if_neg (by omega), if_pos (by omega)]
      exact wf.clear k tail (by omega)

/-- With room left, `add` takes the first slot of the zero tail at once. -/
theorem scan_clear {p : SPoll} (wf : p.WellFormed) (room : p.size < p.capacity) :
    scan p.fds 0 p.capacity (p.capacity - p.size.toNat) p.size.toNat =
      (some p.size.toNat, [⟨p.size.toNat, p.capacity⟩]) := by
  obtain ⟨low, _⟩ := wf.asserts
  obtain ⟨n, hn⟩ : ∃ n, p.capacity - p.size.toNat = n + 1 :=
    ⟨p.capacity - p.size.toNat - 1, by omega⟩
  have free := wf.clear p.size.toNat (by omega) (by omega)
  rw [hn, scan, if_pos (by rw [free]; rfl)]

/-- With room left the descriptor goes behind the used slots. -/
theorem place_good {p : SPoll} (wf : p.WellFormed) (room : p.size < p.capacity) {fd : Int}
    (positive : 0 < fd) (events : BitVec 16) {touched : List Access}
    (bounds : ∀ a ∈ touched, a.InBounds) :
    (∀ a ∈ (p.place fd events touched).2.2, a.InBounds) ∧
      (p.place fd events touched).2.1.WellFormed := by
  obtain ⟨low, high⟩ := wf.asserts
  simp only [place, scan_clear wf room]
  refine ⟨?_, ⟨by simp only; omega, by simp only; omega⟩, ?_, ?_⟩
  · intro a member
    simp only [List.mem_append, List.mem_singleton] at member
    rcases member with (old | rfl) | rfl
    · exact bounds a old
    all_goals
      simp only [Access.InBounds]
      omega
  · intro k inside
    simp only at inside ⊢
    by_cases last : k = p.size.toNat
    · rw [last, Function.update_self]
      simp only
      omega
    · rw [Function.update_of_ne last]
      exact wf.used k (by omega)
  · intro k tail inside
    simp only at tail inside ⊢
    rw [Function.update_of_ne (by omega)]
    exact wf.clear k (by omega) inside

/-- What every operation of a run should do: succeed, stay inside the block it
works on, and leave a well-formed array. -/
def Good (p : SPoll) (op : Op) : Prop :=
  ∃ ret q touched, p.exec op = some (ret, q, touched) ∧
    (∀ a ∈ touched, a.InBounds) ∧ q.WellFormed

/-- The array is full and the descriptor occurs before its last slot. -/
def RemovesInsideFull (p : SPoll) : Op → Prop
  | .add .. => False
  | .remove fd => p.size = p.capacity ∧ ∃ i : Nat, (i : Int) + 1 < p.size ∧ (p.fds i).fd = fd

theorem add_good {p : SPoll} (wf : p.WellFormed) {moved : Nat → PollFd} {fd : Int}
    {events : BitVec 16} (allowed : 0 < fd ∧ events ≠ 0) : p.Good (.add moved fd events) := by
  have guard : ¬ ¬ (0 < fd ∧ events ≠ 0 ∧ p.Asserts) :=
    not_not.mpr ⟨allowed.1, allowed.2, wf.asserts⟩
  obtain ⟨low, high⟩ := wf.asserts
  by_cases full : (p.capacity : Int) ≤ p.size
  · have room : (p.grow moved).1.size < (p.grow moved).1.capacity := by
      simp only [grow, growSize]
      omega
    have gained : ∀ a ∈ (p.grow moved).2, a.InBounds := by
      intro a member
      obtain ⟨limit, _, inside⟩ := mem_span.mp member
      rw [Access.InBounds, limit]
      omega
    obtain ⟨bounds, wf'⟩ := place_good (grow_wellFormed wf moved) room allowed.1 events gained
    exact ⟨_, _, _, by simp only [exec, add, if_neg guard, if_pos full]; rfl, bounds, wf'⟩
  · have room : p.size < p.capacity := by omega
    obtain ⟨bounds, wf'⟩ := place_good wf room allowed.1 events
      (fun _ member => absurd member List.not_mem_nil)
    exact ⟨_, _, _, by simp only [exec, add, if_neg guard, if_neg full]; rfl, bounds, wf'⟩

/-- Removing the last descriptor clears its slot. -/
theorem removeit_last {p : SPoll} (wf : p.WellFormed) {i : Nat} (last : (i : Int) + 1 = p.size) :
    ∃ q touched, removeit i p = some (q, touched) ∧
      (∀ a ∈ touched, a.InBounds) ∧ q.WellFormed := by
  obtain ⟨low, high⟩ := wf.asserts
  have run : removeit i p = some (
      { p with fds := Function.update p.fds i .zero, size := p.size - 1 },
      [⟨i, p.capacity⟩, ⟨i, p.capacity⟩]) := by
    rw [removeit, if_neg (not_not.mpr ⟨wf.asserts, by omega⟩), if_neg (by omega)]
  refine ⟨_, _, run, ?_, ?_⟩
  · intro a member
    simp only [List.mem_cons, List.not_mem_nil, or_false, or_self] at member
    subst a
    simp only [Access.InBounds]
    omega
  · refine ⟨⟨by simp only; omega, by simp only; omega⟩, ?_, ?_⟩
    · intro k inside
      simp only at inside ⊢
      rw [Function.update_of_ne (by omega)]
      exact wf.used k (by omega)
    · intro k tail inside
      simp only at tail inside ⊢
      by_cases same : k = i
      · rw [same, Function.update_self]
      · rw [Function.update_of_ne same]
        exact wf.clear k (by omega) inside

/-- Removing an inner descriptor moves the rest down. With a clear slot behind
the used ones that slot is what fills the gap at the end. -/
theorem removeit_inner {p : SPoll} (wf : p.WellFormed) {i : Nat} (inner : (i : Int) + 1 < p.size)
    (room : p.size < p.capacity) :
    ∃ q touched, removeit i p = some (q, touched) ∧
      (∀ a ∈ touched, a.InBounds) ∧ q.WellFormed := by
  obtain ⟨low, high⟩ := wf.asserts
  have run : removeit i p = some (
      { p with
        fds := fun k => if i ≤ k ∧ k < i + (p.size - i).toNat then p.fds (k + 1) else p.fds k
        size := p.size - 1 },
      ⟨i, p.capacity⟩ :: (span p.capacity (i + 1) (p.size - i).toNat ++
        span p.capacity i (p.size - i).toNat)) := by
    rw [removeit, if_neg (not_not.mpr ⟨wf.asserts, by omega⟩), if_pos inner]
  refine ⟨_, _, run, ?_, ?_⟩
  · intro a member
    simp only [List.mem_cons, List.mem_append, mem_span] at member
    rcases member with rfl | ⟨limit, _, inside⟩ | ⟨limit, _, inside⟩
    · simp only [Access.InBounds]
      omega
    all_goals
      rw [Access.InBounds, limit]
      omega
  · refine ⟨⟨by simp only; omega, by simp only; omega⟩, ?_, ?_⟩
    · intro k inside
      simp only at inside ⊢
      by_cases moved : i ≤ k ∧ k < i + (p.size - i).toNat
      · rw [if_pos moved]
        exact wf.used (k + 1) (by omega)
      · rw [if_neg moved]
        exact wf.used k (by omega)
    · intro k tail inside
      simp only at tail inside ⊢
      by_cases moved : i ≤ k ∧ k < i + (p.size - i).toNat
      · rw [if_pos moved]
        exact wf.clear (k + 1) (by omega) (by omega)
      · rw [if_neg moved]
        exact wf.clear k (by omega) inside

/-- In a full array the block that `removeit` moves down ends one slot past
the end. -/
theorem removeit_full {p : SPoll} {i : Nat} (inner : (i : Int) + 1 < p.size)
    (full : p.size = p.capacity) {q : SPoll} {touched : List Access}
    (run : removeit i p = some (q, touched)) :
    ⟨p.capacity, p.capacity⟩ ∈ touched := by
  unfold removeit at run
  split at run
  · cases run
  · simp only [Option.some.injEq, Prod.mk.injEq] at run
    obtain ⟨_, rfl⟩ := run
    refine List.mem_cons_of_mem _ (List.mem_append_left _ (mem_span.mpr ⟨rfl, ?_, ?_⟩))
    · simp only
      omega
    · simp only
      omega

/-- What `remove` does: nothing where the descriptor is not registered, otherwise
`removeit` at the first slot that holds it. A positive descriptor is never found
in the zero tail. -/
theorem remove_cases {p : SPoll} (wf : p.WellFormed) {fd : Int} (allowed : 0 < fd) :
    ∃ seen : List Access, (∀ a ∈ seen, a.InBounds) ∧
      ((p.exec (.remove fd) = some (0, p, seen) ∧
          ∀ k : Nat, (k : Int) < p.size → (p.fds k).fd ≠ fd) ∨
        ∃ i : Nat, (i : Int) < p.size ∧ (p.fds i).fd = fd ∧ (∀ j < i, (p.fds j).fd ≠ fd) ∧
          p.exec (.remove fd) = (removeit i p).map fun r => (0, r.1, seen ++ r.2)) := by
  have guard : ¬ ¬ (p.Asserts ∧ 0 < fd) := not_not.mpr ⟨wf.asserts, allowed⟩
  obtain ⟨low, high⟩ := wf.asserts
  have spec := scan_spec p.fds fd p.capacity p.capacity 0
  cases loop : scan p.fds fd p.capacity p.capacity 0 with
  | mk found seen =>
  rw [loop] at spec
  obtain ⟨reads, hit, miss⟩ := spec
  refine ⟨seen, ?_, ?_⟩
  · intro a member
    obtain ⟨limit, _, inside⟩ := reads a member
    rw [Access.InBounds, limit]
    omega
  cases found with
  | none =>
      refine .inl ⟨by simp only [exec, remove, if_neg guard, loop], fun k inside => ?_⟩
      exact miss rfl k (by omega) (by omega)
  | some i =>
      obtain ⟨_, inBlock, same, first⟩ := hit i rfl
      have inside : (i : Int) < p.size := by
        by_contra tail
        rw [wf.clear i (by omega) (by omega)] at same
        simp only [PollFd.zero] at same
        omega
      refine .inr ⟨i, inside, same, fun j before => first j (Nat.zero_le j) before, ?_⟩
      simp only [exec, remove, if_neg guard, loop]

theorem remove_good_iff {p : SPoll} (wf : p.WellFormed) {fd : Int} (allowed : 0 < fd) :
    p.Good (.remove fd) ↔ ¬ p.RemovesInsideFull (.remove fd) := by
  obtain ⟨low, high⟩ := wf.asserts
  obtain ⟨seen, bounds, ⟨result, missing⟩ | ⟨i, inside, same, first, result⟩⟩ :=
    remove_cases wf allowed
  · apply iff_of_true ⟨0, p, seen, result, bounds, wf⟩
    rintro ⟨_, i, inside, same⟩
    exact missing i (by omega) same
  · have good : (∃ q touched, removeit i p = some (q, touched) ∧
        (∀ a ∈ touched, a.InBounds) ∧ q.WellFormed) → p.Good (.remove fd) := by
      rintro ⟨q, touched, run, moved, wf'⟩
      refine ⟨0, q, seen ++ touched, by rw [result, run]; rfl, ?_, wf'⟩
      intro a member
      exact (List.mem_append.mp member).elim (bounds a) (moved a)
    by_cases last : (i : Int) + 1 = p.size
    · apply iff_of_true (good (removeit_last wf last))
      rintro ⟨_, j, inner, again⟩
      exact first j (by omega) again
    · have inner : (i : Int) + 1 < p.size := by omega
      by_cases full : p.size = p.capacity
      · refine iff_of_false ?_ (not_not.mpr ⟨full, i, inner, same⟩)
        rintro ⟨ret, q, touched, run, inBounds, _⟩
        rw [result, Option.map_eq_some_iff] at run
        obtain ⟨⟨q', moved⟩, step, eq⟩ := run
        simp only [Prod.mk.injEq] at eq
        have past : ⟨p.capacity, p.capacity⟩ ∈ touched := by
          rw [← eq.2.2]
          exact List.mem_append_right _ (removeit_full inner full step)
        have := inBounds _ past
        simp only [Access.InBounds] at this
        omega
      · apply iff_of_true (good (removeit_inner wf inner (by omega)))
        exact fun h => full h.1

theorem good_iff {p : SPoll} (wf : p.WellFormed) {op : Op} (allowed : op.Allowed) :
    p.Good op ↔ ¬ p.RemovesInsideFull op := by
  cases op with
  | add moved fd events => exact iff_of_true (add_good wf allowed) not_false
  | remove fd => exact remove_good_iff wf allowed

theorem wellFormed_next {p q : SPoll} {op : Op} (good : p.Good op) (run : Det next p op q) :
    q.WellFormed := by
  obtain ⟨ret, q', touched, result, _, wf⟩ := good
  rw [Det, next, result, Option.map_some, Option.some.injEq] at run
  rwa [← run]

/-- The whole-run statement: every operation succeeds, touches only slots of
its block and leaves a well-formed array, if and only if no operation removes
a descriptor from the inside of a full array. -/
theorem run_in_bounds_iff (beyond : Nat → PollFd) (ops : List Op)
    (allowed : ∀ op ∈ ops, op.Allowed) :
    EachStep (Det next) Good (create beyond) ops ↔
      EachStep (Det next) (fun p op => ¬ p.RemovesInsideFull op) (create beyond) ops := by
  apply eachStep_iff (I := WellFormed) (create_wellFormed beyond)
  · intro p op member q wf meets run
    exact wellFormed_next ((good_iff wf (allowed op member)).mpr meets) run
  · intro p op member wf
    exact good_iff wf (allowed op member)

theorem run_in_bounds_iff_three_calls :
    EachStep (Det next) Good (create fun _ => .zero)
        [.add (fun _ => .zero) 4 1, .add (fun _ => .zero) 5 1, .remove 4] ↔
      EachStep (Det next) (fun p op => ¬ p.RemovesInsideFull op) (create fun _ => .zero)
        [.add (fun _ => .zero) 4 1, .add (fun _ => .zero) 5 1, .remove 4] :=
  run_in_bounds_iff _ _ (by
    intro op member
    simp only [List.mem_cons, List.not_mem_nil, or_false] at member
    rcases member with rfl | rfl | rfl
    · exact ⟨by decide, by decide⟩
    · exact ⟨by decide, by decide⟩
    · exact (by decide : (0 : Int) < 4))

/-- Ten registrations, which fill the initial block. -/
def tenAdds : List Op := (List.range 10).map fun k => .add (fun _ => .zero) (k + 1) 1

/-- Removing the first of ten descriptors reads slot 10 of a block of 10 slots. -/
theorem removal_overruns_full_array :
    ¬ EachStep (Det next) Good (create fun _ => .zero) (tenAdds ++ [.remove 1]) := by
  intro every
  have reads : ((tenAdds.foldlM next (create fun _ => .zero)).bind
      (·.exec (.remove 1))).any (fun result => decide (⟨10, 10⟩ ∈ result.2.2)) = true := by
    decide
  obtain ⟨full, run⟩ : ∃ full, tenAdds.foldlM next (create fun _ => .zero) = some full :=
    ⟨_, rfl⟩
  obtain ⟨ret, q, touched, result, bounds, _⟩ := (every.after (run_det_iff.mpr run)).1
  rw [run, Option.bind_some, result, Option.any_some, decide_eq_true_iff] at reads
  exact absurd (bounds _ reads) (by decide)

end LibSBus.SPoll
