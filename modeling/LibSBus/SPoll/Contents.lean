import LibSBus.SPoll.Bounds

/-!
What the poll array stands for: the list of the registered descriptors with the
events they are watched for, in the order in which they were added. Behind the
array are a zero tail, blocks that grow and slots that move; the list only has
a pair appended or the first pair of a descriptor deleted.
-/

namespace LibSBus

open Lib

/-- What a slot says to `poll`. -/
def PollFd.watch (slot : PollFd) : Int × BitVec 16 := (slot.fd, slot.events)

namespace SPoll

variable {p q : SPoll} {op : Op}

/-- The pairs of descriptor and events `getpolls` hands out. -/
def pairs (p : SPoll) : List (Int × BitVec 16) := p.getpolls.map PollFd.watch

/-- A call on the abstract list. -/
def callOnList (l : List (Int × BitVec 16)) : Op → List (Int × BitVec 16)
  | .add _ fd events => l ++ [(fd, events)]
  | .remove fd => l.eraseP fun pair => pair.1 = fd

/-- No slot at or past the capacity is touched. -/
def StaysInside (p : SPoll) (op : Op) : Prop :=
  ∀ result ∈ p.exec op, ∀ a ∈ result.2.2, a.InBounds

instance (p : SPoll) (op : Op) : Decidable (p.StaysInside op) := by
  unfold StaysInside
  cases p.exec op with
  | none => exact .isTrue fun result absurd => by cases absurd
  | some result =>
      exact decidable_of_iff (∀ a ∈ result.2.2, a.InBounds) (by simp)

/-- The call returns 0. -/
def Returns0 (p : SPoll) (op : Op) : Prop := ∃ q touched, p.exec op = some (0, q, touched)

theorem length_pairs (p : SPoll) : p.pairs.length = p.size.toNat := by
  simp [pairs, getpolls]

theorem getElem_pairs (p : SPoll) {k : Nat} (inside : k < p.pairs.length) :
    p.pairs[k] = (p.fds k).watch := by
  simp [pairs, getpolls]

/-- Two arrays of one size stand for the same list if their used slots agree. -/
theorem pairs_congr (size : q.size = p.size)
    (slots : ∀ k : Nat, (k : Int) < p.size → (q.fds k).watch = (p.fds k).watch) :
    q.pairs = p.pairs := by
  apply List.ext_getElem
  · rw [length_pairs, length_pairs, size]
  · intro k inside _
    rw [length_pairs, size] at inside
    rw [getElem_pairs, getElem_pairs]
    exact slots k (by omega)

theorem pairs_grow (wf : p.WellFormed) (moved : Nat → PollFd) :
    (p.grow moved).1.pairs = p.pairs := by
  obtain ⟨low, high⟩ := wf.asserts
  apply pairs_congr (p := p) (q := (p.grow moved).1) rfl
  intro k inside
  have old : k < p.capacity := by omega
  simp only [grow]
  rw [if_neg (by omega), if_pos old]

/-- With room left, `add` succeeds and puts its pair behind the others. -/
theorem place_pairs (wf : p.WellFormed) (room : p.size < p.capacity) (fd : Int)
    (events : BitVec 16) (touched : List Access) :
    (p.place fd events touched).1 = 0 ∧
      (p.place fd events touched).2.1.pairs = p.pairs ++ [(fd, events)] := by
  obtain ⟨low, _⟩ := wf.asserts
  simp only [place, scan_clear wf room]
  refine ⟨trivial, ?_⟩
  apply List.ext_getElem
  · simp only [length_pairs, List.length_append, List.length_singleton]
    omega
  · intro k inside _
    rw [length_pairs] at inside
    simp only at inside
    rw [getElem_pairs]
    by_cases last : k = p.size.toNat
    · subst last
      simp [length_pairs, PollFd.watch]
    · have old : k < p.pairs.length := by
        rw [length_pairs]
        omega
      rw [List.getElem_append_left old, getElem_pairs]
      exact congrArg PollFd.watch (Function.update_of_ne last _ _)

/-- `removeit` deletes one pair, also where the block it moves down reaches past
the end: what it reads there is not among the used slots. -/
theorem removeit_pairs {i : Nat} {touched : List Access} (inside : (i : Int) < p.size)
    (run : removeit i p = some (q, touched)) : q.pairs = p.pairs.eraseIdx i := by
  have size : q.size = p.size - 1 ∧ ∀ k : Nat, (k : Int) < p.size - 1 →
      q.fds k = if k < i then p.fds k else p.fds (k + 1) := by
    unfold removeit at run
    split at run
    case isTrue refused => cases run
    case isFalse accepted =>
      split at run
      case isTrue inner =>
        obtain ⟨rfl, _⟩ := Prod.mk.inj (Option.some.inj run)
        refine ⟨rfl, fun k before => ?_⟩
        dsimp only
        by_cases early : k < i
        · rw [if_neg (by omega), if_pos early]
        · rw [if_pos (by omega), if_neg early]
      case isFalse last =>
        obtain ⟨rfl, _⟩ := Prod.mk.inj (Option.some.inj run)
        refine ⟨rfl, fun k before => ?_⟩
        rw [if_pos (by omega)]
        exact Function.update_of_ne (by omega) _ _
  have here : i < p.pairs.length := by
    rw [length_pairs]
    omega
  apply List.ext_getElem
  · rw [List.length_eraseIdx_of_lt here, length_pairs, length_pairs, size.1]
    omega
  · intro k before _
    rw [length_pairs, size.1] at before
    rw [getElem_pairs, size.2 k (by omega), List.getElem_eraseIdx]
    split
    case isTrue early => rw [getElem_pairs]
    case isFalse late => rw [getElem_pairs]

/-- Deleting the first pair of a descriptor is deleting the pair of the slot the
scan stops at. -/
theorem eraseP_pairs {i : Nat} {fd : Int} (inside : (i : Int) < p.size)
    (here : (p.fds i).fd = fd) (first : ∀ j < i, (p.fds j).fd ≠ fd) :
    (p.pairs.eraseP fun pair => pair.1 = fd) = p.pairs.eraseIdx i := by
  have bound : i < p.pairs.length := by
    rw [length_pairs]
    omega
  have index : p.pairs.findIdx? (fun pair => decide (pair.1 = fd)) = some i := by
    rw [List.findIdx?_eq_some_iff_getElem]
    refine ⟨bound, ?_, fun j before => ?_⟩
    · rw [getElem_pairs]
      exact decide_eq_true here
    · rw [getElem_pairs]
      exact mt of_decide_eq_true (first j before)
  rw [List.eraseP_eq_eraseIdx, index]

theorem eraseP_pairs_of_missing {fd : Int}
    (missing : ∀ k : Nat, (k : Int) < p.size → (p.fds k).fd ≠ fd) :
    (p.pairs.eraseP fun pair => pair.1 = fd) = p.pairs := by
  apply List.eraseP_of_forall_not
  intro pair mem
  obtain ⟨k, inside, rfl⟩ := List.mem_iff_getElem.mp mem
  rw [length_pairs] at inside
  rw [getElem_pairs]
  exact mt of_decide_eq_true (missing k (by omega))

/-- The array stands for the list. -/
def StandsFor (p : SPoll) (l : List (Int × BitVec 16)) : Prop := p.WellFormed ∧ p.pairs = l

/-- A call that stays inside the block finds its slot and leaves the zero tail. -/
theorem good_of_staysInside (wf : p.WellFormed) (allowed : op.Allowed)
    (inside : p.StaysInside op) : p.Good op := by
  apply (good_iff wf allowed).mpr
  cases op with
  | add moved fd events => exact id
  | remove fd =>
      rintro ⟨full, j, inner, same⟩
      obtain ⟨low, high⟩ := wf.asserts
      obtain ⟨seen, _, ⟨_, missing⟩ | ⟨i, used, _, first, result⟩⟩ := remove_cases wf allowed
      · exact missing j (by omega) same
      · have before : i ≤ j := by
          by_contra later
          exact first j (by omega) same
        obtain ⟨⟨q, touched⟩, run⟩ : ∃ r, removeit i p = some r := by
          rw [removeit, if_neg (not_not.mpr ⟨wf.asserts, by omega⟩), if_pos (by omega)]
          exact ⟨_, rfl⟩
        rw [run] at result
        have past := removeit_full (i := i) (by omega) full run
        have := inside _ result _ (List.mem_append_right _ past)
        simp only [Access.InBounds] at this
        omega

theorem exec_pairs (wf : p.WellFormed) (allowed : op.Allowed) {ret : Int}
    {touched : List Access} (result : p.exec op = some (ret, q, touched)) :
    ret = 0 ∧ q.pairs = callOnList p.pairs op := by
  obtain ⟨low, high⟩ := wf.asserts
  cases op with
  | add moved fd events =>
      have guard : ¬ ¬ (0 < fd ∧ events ≠ 0 ∧ p.Asserts) :=
        not_not.mpr ⟨allowed.1, allowed.2, wf.asserts⟩
      simp only [exec, add, if_neg guard] at result
      split at result
      case isTrue full =>
        have room : (p.grow moved).1.size < (p.grow moved).1.capacity := by
          simp only [grow, growSize]
          omega
        obtain ⟨zero, appended⟩ := place_pairs (grow_wellFormed wf moved) room fd events
          (p.grow moved).2
        rw [Option.some.inj result] at zero appended
        rw [pairs_grow wf] at appended
        exact ⟨zero, appended⟩
      case isFalse room =>
        obtain ⟨zero, appended⟩ := place_pairs wf (by omega) fd events []
        rw [Option.some.inj result] at zero appended
        exact ⟨zero, appended⟩
  | remove fd =>
      obtain ⟨seen, _, ⟨unchanged, missing⟩ | ⟨i, used, here, first, removed⟩⟩ :=
        remove_cases wf allowed
      · obtain ⟨rfl, rfl, _⟩ := by simpa using unchanged.symm.trans result
        exact ⟨rfl, (eraseP_pairs_of_missing missing).symm⟩
      · obtain ⟨⟨q', moved⟩, run, eq⟩ := Option.map_eq_some_iff.mp (removed.symm.trans result)
        obtain ⟨rfl, rfl, _⟩ := by simpa using eq
        exact ⟨rfl, (removeit_pairs used run).trans (eraseP_pairs used here first).symm⟩

/-- In every run whose calls touch no slot past the capacity, every call returns
0, and the array stands for the list the calls make. -/
theorem contents_of_run (beyond : Nat → PollFd) (ops : List Op)
    (allowed : ∀ op ∈ ops, op.Allowed)
    (inside : EachStep (Det next) StaysInside (create beyond) ops) :
    EachStep (Det next) Returns0 (create beyond) ops ∧
      ∀ p, Run (Det next) (create beyond) ops p → p.pairs = ops.foldl callOnList [] := by
  have guard := inside.with_labels allowed
  have start := create_wellFormed beyond
  constructor
  · apply EachStep.of_invariant start guard
    · rintro p op q wf ⟨fits, stays⟩ call
      exact wellFormed_next (good_of_staysInside wf fits stays) call
    · rintro p op wf ⟨fits, stays⟩
      obtain ⟨ret, q, touched, result, _⟩ := good_of_staysInside wf fits stays
      obtain ⟨rfl, _⟩ := exec_pairs wf fits result
      exact ⟨q, touched, result⟩
  · intro p run
    have empty : (create beyond).StandsFor [] := ⟨start, rfl⟩
    refine (run.simulates (R := StandsFor) empty guard ?_).2
    rintro p op q l ⟨wf, rfl⟩ ⟨fits, stays⟩ call
    refine ⟨wellFormed_next (good_of_staysInside wf fits stays) call, ?_⟩
    obtain ⟨⟨ret, q', touched⟩, result, rfl⟩ := Option.map_eq_some_iff.mp call
    exact (exec_pairs wf fits result).2

/-- One descriptor registered twice, and its first registration deleted. -/
theorem contents_of_run_twice :
    ∃ p, Run (Det next) (create fun _ => .zero)
        [.add (fun _ => .zero) 4 1, .add (fun _ => .zero) 5 1, .add (fun _ => .zero) 4 9,
          .remove 4, .remove 7] p ∧
      p.pairs = [(5, 1), (4, 9)] := by
  have run := run_det_iff.mpr
    (rfl : [Op.add (fun _ => .zero) 4 1, .add (fun _ => .zero) 5 1, .add (fun _ => .zero) 4 9,
      .remove 4, .remove 7].foldlM next (create fun _ => .zero) = some _)
  refine ⟨_, run, (contents_of_run (fun _ => .zero) _ ?_ (by decide +kernel)).2 _ run⟩
  intro op member
  simp only [List.mem_cons, List.not_mem_nil, or_false] at member
  rcases member with rfl | rfl | rfl | rfl | rfl
  · exact ⟨by decide, by decide⟩
  · exact ⟨by decide, by decide⟩
  · exact ⟨by decide, by decide⟩
  · exact (by decide : (0 : Int) < 4)
  · exact (by decide : (0 : Int) < 7)

end SPoll

end LibSBus
