import LibSBus.SPoll.Bounds

/-!
The loop of `~SPoll`, which walks the array from its start and calls `removeit` on
every slot that holds a descriptor. Each call moves the slots behind it down by one
and the loop moves on by one, so the next descriptor is stepped over.
-/

namespace LibSBus.SPoll

open Lib

variable {p q : SPoll} {i n : Nat} {touched : List Access}

/-- `for(...;i<capacity;i++) if(fds[i].fd!=0) removeit(i);` over `n` slots from `i`
on. No result where an assertion of `removeit` fails. -/
def disposeLoop : Nat → Nat → SPoll → Option (SPoll × List Access)
  | 0, _, p => some (p, [])
  | n + 1, i, p =>
      if (p.fds i).fd ≠ 0 then
        (removeit i p).bind fun (q, touched) =>
          (disposeLoop n (i + 1) q).map fun (r, later) =>
            (r, ⟨i, p.capacity⟩ :: (touched ++ later))
      else
        (disposeLoop n (i + 1) p).map fun (r, later) => (r, ⟨i, p.capacity⟩ :: later)

/-- `SPoll::~SPoll` up to where the block is freed. -/
def dispose (p : SPoll) : Option (SPoll × List Access) :=
  if ¬ p.Asserts then none else disposeLoop p.capacity 0 p

/-- The loop ends, with every descriptor removed. -/
def Disposes (p : SPoll) : Prop :=
  ∃ q touched, p.dispose = some (q, touched) ∧ q.size = 0 ∧
    ∀ k < q.capacity, (q.fds k).fd = 0

/-- One descriptor at most, and nothing behind it. -/
def AtMostOne (p : SPoll) : Prop :=
  (p.size = 0 ∨ p.size = 1) ∧
    ∀ k : Nat, p.size ≤ k → k < p.capacity → (p.fds k).fd = 0

/-- What `removeit` does, whatever the slots hold. -/
theorem removeit_cases (run : removeit i p = some (q, touched)) :
    q.size = p.size - 1 ∧ q.capacity = p.capacity ∧
    (((i : Int) + 1 < p.size ∧
        ∀ k : Nat, q.fds k = if i ≤ k ∧ (k : Int) < p.size then p.fds (k + 1) else p.fds k) ∨
      (p.size ≤ (i : Int) + 1 ∧ q.fds = Function.update p.fds i .zero)) := by
  unfold removeit at run
  split at run
  case isTrue refused => cases run
  case isFalse accepted =>
    split at run
    case isTrue inner =>
      obtain ⟨rfl, _⟩ := Prod.mk.inj (Option.some.inj run)
      refine ⟨rfl, rfl, .inl ⟨inner, fun k => ?_⟩⟩
      have same : k < i + (p.size - i).toNat ↔ (k : Int) < p.size := by omega
      simp only [same]
    case isFalse last =>
      obtain ⟨rfl, _⟩ := Prod.mk.inj (Option.some.inj run)
      exact ⟨rfl, rfl, .inr ⟨by omega, rfl⟩⟩

/-- Slots below the one removed stay. -/
theorem removeit_below (run : removeit i p = some (q, touched)) {k : Nat} (below : k < i) :
    q.fds k = p.fds k := by
  obtain ⟨_, _, ⟨_, moved⟩ | ⟨_, cleared⟩⟩ := removeit_cases run
  · rw [moved, if_neg (by omega)]
  · rw [cleared, Function.update_of_ne (by omega)]

/-- One round of the loop at a slot in use. -/
theorem disposeLoop_used (used : (p.fds i).fd ≠ 0) {result : SPoll × List Access} :
    disposeLoop (n + 1) i p = some result ↔
      ∃ q touched r later, removeit i p = some (q, touched) ∧
        disposeLoop n (i + 1) q = some (r, later) ∧
        result = (r, ⟨i, p.capacity⟩ :: (touched ++ later)) := by
  rw [disposeLoop, if_pos used]
  simp only [Option.bind_eq_some_iff, Option.map_eq_some_iff, Prod.exists]
  constructor
  · rintro ⟨q, touched, first, r, later, rest, rfl⟩
    exact ⟨q, touched, r, later, first, rest, rfl⟩
  · rintro ⟨q, touched, r, later, first, rest, rfl⟩
    exact ⟨q, touched, first, r, later, rest, rfl⟩

/-- One round of the loop at a clear slot. -/
theorem disposeLoop_clear (clear : (p.fds i).fd = 0) {result : SPoll × List Access} :
    disposeLoop (n + 1) i p = some result ↔
      ∃ r later, disposeLoop n (i + 1) p = some (r, later) ∧
        result = (r, ⟨i, p.capacity⟩ :: later) := by
  rw [disposeLoop, if_neg (not_not.mpr clear)]
  simp only [Option.map_eq_some_iff, Prod.exists]
  constructor
  · rintro ⟨r, later, rest, rfl⟩
    exact ⟨r, later, rest, rfl⟩
  · rintro ⟨r, later, rest, rfl⟩
    exact ⟨r, later, rest, rfl⟩

/-- The loop never comes back to a slot it has passed, and every slot it finds in use
takes one off the size. -/
theorem disposeLoop_spec {r : SPoll} {touched : List Access}
    (run : disposeLoop n i p = some (r, touched)) :
    r.capacity = p.capacity ∧ (∀ k < i, r.fds k = p.fds k) ∧ r.size ≤ p.size ∧
      ((∃ k, i ≤ k ∧ k < i + n ∧ (p.fds k).fd ≠ 0) → r.size < p.size) := by
  induction n generalizing i p touched with
  | zero =>
      obtain ⟨rfl, _⟩ := Prod.mk.inj (Option.some.inj run)
      refine ⟨rfl, fun _ _ => rfl, Int.le_refl _, ?_⟩
      rintro ⟨k, low, high, _⟩
      omega
  | succ n ih =>
      by_cases used : (p.fds i).fd = 0
      · obtain ⟨r', later, rest, eq⟩ := (disposeLoop_clear used).mp run
        obtain ⟨rfl, _⟩ := Prod.mk.inj eq
        obtain ⟨capacity, below, least, less⟩ := ih rest
        refine ⟨capacity, fun k passed => below k (by omega), least, ?_⟩
        rintro ⟨k, low, high, other⟩
        have later : k ≠ i := by
          rintro rfl
          exact other used
        exact less ⟨k, by omega, by omega, other⟩
      · obtain ⟨q, moved, r', later, first, rest, eq⟩ := (disposeLoop_used used).mp run
        obtain ⟨rfl, _⟩ := Prod.mk.inj eq
        obtain ⟨capacity, below, least, _⟩ := ih rest
        obtain ⟨shrunk, block, _⟩ := removeit_cases first
        refine ⟨capacity.trans block, fun k passed => ?_, by omega, fun _ => by omega⟩
        rw [below k (by omega), removeit_below first passed]

/-- Over clear slots the loop only reads. -/
theorem disposeLoop_of_clear (clear : ∀ k, i ≤ k → k < i + n → (p.fds k).fd = 0) :
    disposeLoop n i p = some (p, span p.capacity i n) := by
  induction n generalizing i with
  | zero => rfl
  | succ n ih =>
      apply (disposeLoop_clear (clear i (Nat.le_refl i) (by omega))).mpr
      refine ⟨p, _, ih fun k low high => clear k (by omega) (by omega), ?_⟩
      simp [span, List.range'_succ]

/-- What holds of every array a run reaches, also where a removal from a full array
has left a slot in use behind the size. -/
structure Reached (p : SPoll) : Prop where
  below : p.size ≤ p.capacity
  used : ∀ k : Nat, (k : Int) < p.size → (p.fds k).fd ≠ 0

theorem reached_grow (reached : p.Reached) (moved : Nat → PollFd) : (p.grow moved).1.Reached := by
  obtain ⟨below, used⟩ := reached
  refine ⟨by simp only [grow]; omega, fun k inside => ?_⟩
  simp only [grow] at inside ⊢
  rw [if_neg (by omega), if_pos (by omega)]
  exact used k inside

/-- The slots `add` passes over on its way are in use. -/
theorem reached_place (reached : p.Reached) (low : 0 ≤ p.size) {fd : Int} (positive : 0 < fd)
    (events : BitVec 16) (touched : List Access) : (p.place fd events touched).2.1.Reached := by
  obtain ⟨below, used⟩ := reached
  have spec := scan_spec p.fds 0 p.capacity (p.capacity - p.size.toNat) p.size.toNat
  unfold place
  cases loop : scan p.fds 0 p.capacity (p.capacity - p.size.toNat) p.size.toNat with
  | mk found seen =>
  rw [loop] at spec
  cases found with
  | none => exact ⟨below, used⟩
  | some i =>
      obtain ⟨start, inBlock, _, passed⟩ := spec.2.1 i rfl
      refine ⟨by simp only; omega, fun k inside => ?_⟩
      simp only at inside ⊢
      by_cases here : k = i
      · rw [here, Function.update_self]
        simp only
        omega
      · rw [Function.update_of_ne here]
        cases Int.lt_or_le k p.size with
        | inl old => exact used k old
        | inr new => exact passed k (by omega) (by omega)

theorem reached_removeit (reached : p.Reached) (run : removeit i p = some (q, touched)) :
    q.Reached := by
  obtain ⟨below, used⟩ := reached
  obtain ⟨size, capacity, ⟨_, moved⟩ | ⟨last, cleared⟩⟩ := removeit_cases run
  · refine ⟨by omega, fun k inside => ?_⟩
    rw [moved]
    split
    · exact used (k + 1) (by omega)
    · exact used k (by omega)
  · refine ⟨by omega, fun k inside => ?_⟩
    rw [cleared, Function.update_of_ne (by omega)]
    exact used k (by omega)

theorem reached_next {op : Op} (reached : p.Reached) (run : Det next p op q) : q.Reached := by
  obtain ⟨⟨ret, q', touched⟩, result, rfl⟩ := Option.map_eq_some_iff.mp run
  cases op with
  | add moved fd events =>
      simp only [exec, add] at result
      split at result
      case isTrue refused => cases result
      case isFalse accepted =>
        obtain ⟨positive, _, low, _⟩ := not_not.mp accepted
        split at result
        case isTrue full =>
          have kept := reached_place (reached_grow reached moved) low positive events
            (p.grow moved).2
          rwa [Option.some.inj result] at kept
        case isFalse room =>
          have kept := reached_place reached low positive events []
          rwa [Option.some.inj result] at kept
  | remove fd =>
      simp only [exec, remove] at result
      split at result
      case isTrue refused => cases result
      case isFalse accepted =>
        split at result
        case h_1 j seen loop =>
          obtain ⟨⟨r, moved⟩, removed, eq⟩ := Option.map_eq_some_iff.mp result
          obtain ⟨_, rfl, _⟩ := by simpa using eq
          exact reached_removeit reached removed
        case h_2 seen loop =>
          obtain ⟨_, rfl, _⟩ := by simpa using result
          exact reached

theorem reached_of_run {beyond : Nat → PollFd} {ops : List Op}
    (run : Run (Det next) (create beyond) ops p) : p.Reached := by
  apply run.invariant
  · exact ⟨(create_wellFormed beyond).asserts.2, (create_wellFormed beyond).used⟩
  · intro p op q reached call
    exact reached_next reached call

/-- The first call moves the second descriptor to slot 0, where nothing looks again. -/
theorem dispose_keeps_second (reached : p.Reached) (two : 2 ≤ p.size) {r : SPoll}
    (run : p.dispose = some (r, touched)) : 0 < r.capacity ∧ (r.fds 0).fd ≠ 0 := by
  obtain ⟨below, used⟩ := reached
  unfold dispose at run
  split at run
  case isTrue refused => cases run
  case isFalse accepted =>
    obtain ⟨n, block⟩ : ∃ n, p.capacity = n + 1 := ⟨p.capacity - 1, by omega⟩
    rw [block] at run
    obtain ⟨q, moved, r', later, first, rest, eq⟩ :=
      (disposeLoop_used (used 0 (by omega))).mp run
    obtain ⟨rfl, _⟩ := Prod.mk.inj eq
    obtain ⟨capacity, passed, _⟩ := disposeLoop_spec rest
    obtain ⟨_, kept, ⟨_, shifted⟩ | ⟨last, _⟩⟩ := removeit_cases first
    · refine ⟨by omega, ?_⟩
      rw [passed 0 (by omega), shifted, if_pos ⟨by omega, by omega⟩]
      exact used 1 (by omega)
    · omega

/-- A slot in use behind the size is counted off the size as well. -/
theorem clear_of_disposes (reached : p.Reached) (disposes : p.Disposes) (small : p.size ≤ 1) :
    ∀ k : Nat, p.size ≤ k → k < p.capacity → (p.fds k).fd = 0 := by
  intro k behind inside
  by_contra other
  obtain ⟨r, touched, run, empty, _⟩ := disposes
  unfold dispose at run
  split at run
  case isTrue refused => cases run
  case isFalse accepted =>
    obtain ⟨low, high⟩ := not_not.mp accepted
    by_cases zero : p.size = 0
    · have less := (disposeLoop_spec run).2.2.2 ⟨k, by omega, by omega, other⟩
      omega
    · obtain ⟨n, block⟩ : ∃ n, p.capacity = n + 1 := ⟨p.capacity - 1, by omega⟩
      rw [block] at run
      obtain ⟨q, moved, r', later, first, rest, eq⟩ :=
        (disposeLoop_used (reached.used 0 (by omega))).mp run
      obtain ⟨rfl, _⟩ := Prod.mk.inj eq
      obtain ⟨size, _, ⟨inner, _⟩ | ⟨_, cleared⟩⟩ := removeit_cases first
      · omega
      · have still : (q.fds k).fd ≠ 0 := by
          rwa [cleared, Function.update_of_ne (by omega)]
        have less := (disposeLoop_spec rest).2.2.2 ⟨k, by omega, by omega, still⟩
        omega

theorem disposes_of_atMostOne (reached : p.Reached) (one : p.AtMostOne) : p.Disposes := by
  obtain ⟨size, clear⟩ := one
  have below := reached.below
  have asserts : ¬ ¬ p.Asserts := not_not.mpr ⟨by omega, below⟩
  unfold Disposes
  rw [dispose, if_neg asserts]
  cases size with
  | inl zero =>
      have all : ∀ k, 0 ≤ k → k < 0 + p.capacity → (p.fds k).fd = 0 := fun k _ inside =>
        clear k (by omega) (by omega)
      exact ⟨p, _, disposeLoop_of_clear all, zero, fun k inside => all k (by omega) (by omega)⟩
  | inr single =>
      obtain ⟨n, block⟩ : ∃ n, p.capacity = n + 1 := ⟨p.capacity - 1, by omega⟩
      have first : removeit 0 p = some (
          { p with fds := Function.update p.fds 0 .zero, size := p.size - 1 },
          [⟨0, p.capacity⟩, ⟨0, p.capacity⟩]) := by
        rw [removeit, if_neg (not_not.mpr ⟨not_not.mp asserts, by omega⟩), if_neg (by omega)]
      have all : ∀ k < p.capacity, (Function.update p.fds 0 PollFd.zero k).fd = 0 := by
        intro k inside
        by_cases here : k = 0
        · rw [here, Function.update_self]
          rfl
        · rw [Function.update_of_ne here]
          exact clear k (by omega) inside
      have rest := disposeLoop_of_clear (n := n) (i := 1)
        (p := { p with fds := Function.update p.fds 0 .zero, size := p.size - 1 })
        fun k low high => all k (by omega)
      rw [block]
      refine ⟨_, _, (disposeLoop_used (reached.used 0 (by omega))).mpr
        ⟨_, _, _, _, first, rest, rfl⟩, by simp only; omega, all⟩

/-- From any array a run reaches, the loop removes every descriptor if and only if
there is one at most, with the rest of the block clear. -/
theorem dispose_iff {beyond : Nat → PollFd} {ops : List Op}
    (run : Run (Det next) (create beyond) ops p) : p.Disposes ↔ p.AtMostOne := by
  have reached := reached_of_run run
  constructor
  · intro disposes
    obtain ⟨r, touched, ended, empty, cleared⟩ := id disposes
    have asserts : p.Asserts := by
      by_contra refused
      rw [dispose, if_pos refused] at ended
      cases ended
    have small : p.size ≤ 1 := by
      by_contra more
      obtain ⟨inside, kept⟩ := dispose_keeps_second reached (by omega) ended
      exact kept (cleared 0 inside)
    have := asserts.1
    exact ⟨by omega, clear_of_disposes reached disposes small⟩
  · exact disposes_of_atMostOne reached

theorem dispose_iff_single :
    ∃ p, Run (Det next) (create fun _ => .zero) [.add (fun _ => .zero) 4 1] p ∧
      (p.Disposes ↔ p.AtMostOne) := by
  have run := run_det_iff.mpr
    (rfl : [Op.add (fun _ => .zero) 4 1].foldlM next (create fun _ => .zero) = some _)
  exact ⟨_, run, dispose_iff run⟩

/-- Of two registered descriptors the second one stays. -/
theorem dispose_skips_descriptor :
    ¬ ∀ (beyond : Nat → PollFd) (ops : List Op) (p : SPoll),
      Run (Det next) (create beyond) ops p → p.size < p.capacity → p.Disposes := by
  intro always
  have run := run_det_iff.mpr
    (rfl : [Op.add (fun _ => .zero) 4 1, .add (fun _ => .zero) 5 1].foldlM next
      (create fun _ => .zero) = some _)
  have disposes := always (fun _ => .zero) _ _ run (by decide)
  obtain ⟨r, touched, ended, _, cleared⟩ := disposes
  obtain ⟨inside, kept⟩ := dispose_keeps_second (reached_of_run run) (by decide) ended
  exact kept (cleared 0 inside)

/-- The loop from slot `i` on: no assertion fails, no slot past the block is touched,
and of the descriptors from `i` on every second one stays. -/
theorem disposeLoop_half (wf : p.WellFormed) (room : p.size < p.capacity)
    (block : i + n = p.capacity) :
    ∃ q touched, disposeLoop n i p = some (q, touched) ∧ (∀ a ∈ touched, a.InBounds) ∧
      q.WellFormed ∧ q.size = if p.size ≤ i then p.size else (p.size + i) / 2 := by
  induction n generalizing i p with
  | zero => exact ⟨p, [], rfl, by simp, wf, by rw [if_pos (by omega)]⟩
  | succ n ih =>
      have here : (⟨i, p.capacity⟩ : Access).InBounds := by
        simp only [Access.InBounds]
        omega
      cases Int.lt_or_le i p.size with
      | inl used =>
          obtain ⟨q, moved, first, inside, wf'⟩ : ∃ q moved, removeit i p = some (q, moved) ∧
              (∀ a ∈ moved, a.InBounds) ∧ q.WellFormed := by
            by_cases last : (i : Int) + 1 = p.size
            · exact removeit_last wf last
            · exact removeit_inner wf (by omega) room
          obtain ⟨size, capacity, _⟩ := removeit_cases first
          have room' : q.size < q.capacity := by omega
          have block' : i + 1 + n = q.capacity := by omega
          obtain ⟨r, later, rest, behind, wf'', final⟩ := ih wf' room' block'
          refine ⟨r, _, (disposeLoop_used (wf.used i used)).mpr
            ⟨q, moved, r, later, first, rest, rfl⟩, ?_, wf'', ?_⟩
          · intro a member
            simp only [List.mem_cons, List.mem_append] at member
            rcases member with rfl | early | late
            · exact here
            · exact inside a early
            · exact behind a late
          · have before : ¬ p.size ≤ (i : Int) := by omega
            rw [final, size, if_neg before]
            split <;> omega
      | inr clear =>
          have zero : (p.fds i).fd = 0 := by
            rw [wf.clear i clear (by omega)]
            rfl
          have block' : i + 1 + n = p.capacity := by omega
          obtain ⟨r, later, rest, behind, wf', final⟩ := ih wf room block'
          refine ⟨r, _, (disposeLoop_clear zero).mpr ⟨r, later, rest, rfl⟩, ?_, wf', ?_⟩
          · intro a member
            simp only [List.mem_cons] at member
            rcases member with rfl | late
            · exact here
            · exact behind a late
          · rw [final, if_pos (by omega), if_pos clear]

/-- On a well-formed array with room left the destructor asserts nothing false and
removes half of the descriptors. -/
theorem dispose_half (wf : p.WellFormed) (room : p.size < p.capacity) :
    ∃ q touched, p.dispose = some (q, touched) ∧ (∀ a ∈ touched, a.InBounds) ∧
      q.WellFormed ∧ q.size = p.size / 2 := by
  obtain ⟨q, touched, run, inside, wf', size⟩ := disposeLoop_half wf room (Nat.zero_add _)
  refine ⟨q, touched, ?_, inside, wf', ?_⟩
  · rw [dispose, if_neg (not_not.mpr wf.asserts)]
    exact run
  · have := wf.asserts.1
    rw [size]
    split <;> omega

end LibSBus.SPoll
