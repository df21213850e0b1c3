import Mathlib.Logic.Basic

/-!
Runs of a labelled step relation. A run is a list of labels together with the
states it joins; an invariant is carried along it by one induction, here. A
step relation may be partial: a label without a successor ends the run.

`EachStep` speaks about every step a run takes, with the state before it. The
two rules that matter are `Run.guarded_invariant`, where the invariant is kept
only by steps that meet a side condition, and `eachStep_iff`, which moves an
equivalence known for a single step under the invariant to whole runs.
-/

namespace LibSBus.Lib

variable {σ α : Type*}

inductive Run (step : σ → α → σ → Prop) : σ → List α → σ → Prop
  | nil (s : σ) : Run step s [] s
  | cons {s t u : σ} {a : α} {as : List α}
      (head : step s a t) (tail : Run step t as u) : Run step s (a :: as) u

/-- `P` holds of every label of the list and the state it is taken in. -/
def EachStep (step : σ → α → σ → Prop) (P : σ → α → Prop) : σ → List α → Prop
  | _, [] => True
  | s, a :: as => P s a ∧ ∀ t, step s a t → EachStep step P t as

/-- The step relation of a partial function. -/
def Det (f : σ → α → Option σ) (s : σ) (a : α) (t : σ) : Prop := f s a = some t

variable {step : σ → α → σ → Prop} {P Q : σ → α → Prop} {I : σ → Prop}

theorem Run.append {s t u : σ} {as bs : List α} (first : Run step s as t)
    (second : Run step t bs u) : Run step s (as ++ bs) u := by
  induction first with
  | nil => exact second
  | cons head _ ih => exact .cons head (ih second)

theorem Run.invariant {s t : σ} {as : List α} (run : Run step s as t) (start : I s)
    (keep : ∀ s a t, I s → step s a t → I t) : I t := by
  induction run with
  | nil => exact start
  | cons head _ ih => exact ih (keep _ _ _ start head)

/-- The invariant rule for steps that keep `I` only when they meet `P`. -/
theorem Run.guarded_invariant {s t : σ} {as : List α} (run : Run step s as t)
    (start : I s) (guard : EachStep step P s as)
    (keep : ∀ s a t, I s → P s a → step s a t → I t) : I t := by
  induction run with
  | nil => exact start
  | cons head _ ih => exact ih (keep _ _ _ start guard.1 head) (guard.2 _ head)

/-- Forward simulation by a function: what a run does to the concrete state, the
fold of `g` over its labels does to the abstract one. -/
theorem Run.simulates {τ : Type*} {g : τ → α → τ} {R : σ → τ → Prop} {s t : σ} {x : τ}
    {as : List α} (run : Run step s as t) (start : R s x) (guard : EachStep step P s as)
    (keep : ∀ s a t x, R s x → P s a → step s a t → R t (g x a)) : R t (as.foldl g x) := by
  induction run generalizing x with
  | nil => exact start
  | cons head _ ih => exact ih (keep _ _ _ _ start guard.1 head) (guard.2 _ head)

/-- Where every step costs some of a measure, a run is no longer than what it
has to spend. -/
theorem Run.length_add_le {s t : σ} {as : List α} (run : Run step s as t) (start : I s)
    (μ : σ → Nat) (keep : ∀ s a t, I s → step s a t → I t)
    (cost : ∀ s a t, I s → step s a t → μ t < μ s) : as.length + μ t ≤ μ s := by
  induction run with
  | nil => simp
  | cons head _ ih =>
      have spent := cost _ _ _ start head
      have rest := ih (keep _ _ _ start head)
      rw [List.length_cons]
      omega

/-- The progress rule: when some labels bring a run nearer to `G`, no label takes it further
away, and none leaves `G`, a run with enough of them gets there. -/
theorem Run.progress {G : σ → Prop} {counts : α → Bool} {s t : σ} {as : List α}
    (run : Run step s as t) (start : I s) (guard : EachStep step P s as) (μ : σ → Nat)
    (keep : ∀ s a t, I s → P s a → step s a t → I t)
    (stays : ∀ s a t, I s → P s a → G s → step s a t → G t)
    (nearer : ∀ s a t, I s → P s a → step s a t →
      G t ∨ (if counts a then 1 else 0) + μ t ≤ μ s) :
    G t ∨ as.countP counts + μ t ≤ μ s := by
  induction run with
  | nil s => simp
  | cons head tail ih =>
      have kept := keep _ _ _ start guard.1 head
      have later := guard.2 _ head
      rcases nearer _ _ _ start guard.1 head with there | less
      · have both := tail.guarded_invariant (I := fun s => I s ∧ G s) ⟨kept, there⟩ later
          fun s a t both fine head =>
            ⟨keep s a t both.1 fine head, stays s a t both.1 fine both.2 head⟩
        exact .inl both.2
      · refine (ih kept later).imp id fun rest => ?_
        rw [List.countP_cons]
        omega

theorem eachStep_of_forall (all : ∀ s a, P s a) (s : σ) (as : List α) : EachStep step P s as := by
  induction as generalizing s with
  | nil => trivial
  | cons a as ih => exact ⟨all s a, fun t _ => ih t⟩

theorem eachStep_and {s : σ} {as : List α} :
    EachStep step (fun s a => P s a ∧ Q s a) s as ↔
      EachStep step P s as ∧ EachStep step Q s as := by
  induction as generalizing s with
  | nil => exact ⟨fun _ => ⟨trivial, trivial⟩, fun _ => trivial⟩
  | cons a as ih =>
      constructor
      · rintro ⟨⟨first, second⟩, later⟩
        exact ⟨⟨first, fun t head => (ih.mp (later t head)).1⟩,
          second, fun t head => (ih.mp (later t head)).2⟩
      · rintro ⟨⟨first, later⟩, second, later'⟩
        exact ⟨⟨first, second⟩, fun t head => ih.mpr ⟨later t head, later' t head⟩⟩

/-- What is known of every step is known of the step after any initial part. -/
theorem EachStep.after {s t : σ} {as bs : List α} (every : EachStep step P s (as ++ bs))
    (run : Run step s as t) : EachStep step P t bs := by
  induction run with
  | nil => exact every
  | cons head _ ih => exact ih (every.2 _ head)

/-- What is known of all labels may be used at every step. -/
theorem EachStep.with_labels {R : α → Prop} {s : σ} {as : List α} (every : EachStep step P s as)
    (labels : ∀ a ∈ as, R a) : EachStep step (fun s a => R a ∧ P s a) s as := by
  induction as generalizing s with
  | nil => trivial
  | cons a as ih =>
      obtain ⟨here, later⟩ := List.forall_mem_cons.mp labels
      exact ⟨⟨here, every.1⟩, fun t head => ih (every.2 t head) later⟩

/-- `EachStep` holds as soon as `P` follows from an invariant that the steps
meeting `Q` keep. -/
theorem EachStep.of_invariant {s : σ} {as : List α} (start : I s)
    (guard : EachStep step Q s as)
    (keep : ∀ s a t, I s → Q s a → step s a t → I t)
    (use : ∀ s a, I s → Q s a → P s a) : EachStep step P s as := by
  induction as generalizing s with
  | nil => trivial
  | cons a as ih =>
      refine ⟨use s a start guard.1, fun t head => ?_⟩
      exact ih (keep s a t start guard.1 head) (guard.2 t head)

/-- If, under the invariant, one step is good exactly when it meets `Q`, and
such steps keep the invariant, then all steps of a run are good exactly when
they all meet `Q`. The first step that does not meet `Q` is the one that is
not good, so the invariant is never needed past it. -/
theorem eachStep_iff {s : σ} {as : List α} (start : I s)
    (keep : ∀ s, ∀ a ∈ as, ∀ t, I s → Q s a → step s a t → I t)
    (one : ∀ s, ∀ a ∈ as, I s → (P s a ↔ Q s a)) :
    EachStep step P s as ↔ EachStep step Q s as := by
  induction as generalizing s with
  | nil => exact Iff.rfl
  | cons a as ih =>
      have rest : ∀ t, I t → (EachStep step P t as ↔ EachStep step Q t as) := fun t ht =>
        ih ht (fun s b hb => keep s b (List.mem_cons_of_mem a hb))
          fun s b hb => one s b (List.mem_cons_of_mem a hb)
      have here := one s a List.mem_cons_self start
      have next := fun t meets head => keep s a List.mem_cons_self t start meets head
      constructor
      · rintro ⟨good, later⟩
        have meets := here.mp good
        exact ⟨meets, fun t head => (rest t (next t meets head)).mp (later t head)⟩
      · rintro ⟨meets, later⟩
        exact ⟨here.mpr meets, fun t head => (rest t (next t meets head)).mpr (later t head)⟩

/-- `G` holds in every state a run by the list passes through. -/
def Always (step : σ → α → σ → Prop) (G : σ → Prop) (s : σ) (as : List α) : Prop :=
  ∀ pre, pre <+: as → ∀ t, Run step s pre t → G t

theorem always_iff {G : σ → Prop} {s : σ} {as : List α} (start : G s) :
    Always step G s as ↔ EachStep step (fun s a => ∀ t, step s a t → G t) s as := by
  induction as generalizing s with
  | nil =>
      refine iff_of_true ?_ trivial
      intro pre prefixed t run
      rw [List.prefix_nil] at prefixed
      subst prefixed
      cases run
      exact start
  | cons a as ih =>
      constructor
      · intro always
        have one : ∀ t, step s a t → G t := fun t head =>
          always [a] (List.prefix_append [a] as) t (.cons head (.nil t))
        refine ⟨one, fun t head => (ih (one t head)).mp fun pre prefixed u run => ?_⟩
        exact always (a :: pre) (List.cons_prefix_cons.mpr ⟨rfl, prefixed⟩) u (.cons head run)
      · rintro ⟨one, rest⟩ pre prefixed t run
        cases run with
        | nil => exact start
        | cons head tail =>
            obtain ⟨rfl, shorter⟩ := List.cons_prefix_cons.mp prefixed
            exact (ih (one _ head)).mpr (rest _ head) _ shorter t tail

theorem EachStep.prefix {s : σ} {as bs : List α} (every : EachStep step P s (as ++ bs)) :
    EachStep step P s as := by
  induction as generalizing s with
  | nil => trivial
  | cons a as ih => exact ⟨every.1, fun t head => ih (every.2 t head)⟩

/-- `G` always holds if it follows from an invariant that the steps meeting `Q`
keep. -/
theorem Always.of_invariant {G : σ → Prop} {s : σ} {as : List α} (start : I s)
    (guard : EachStep step Q s as)
    (keep : ∀ s a t, I s → Q s a → step s a t → I t)
    (use : ∀ s, I s → G s) : Always step G s as := by
  rintro pre ⟨rest, rfl⟩ t run
  exact use t (run.guarded_invariant start guard.prefix keep)

/-- Where the step is a function, one run is all there is to look at. -/
theorem eachStep_det_cons {f : σ → α → Option σ} {s : σ} {a : α} {as : List α} :
    EachStep (Det f) P s (a :: as) ↔
      P s a ∧ ∀ t ∈ f s a, EachStep (Det f) P t as := Iff.rfl

instance decidableEachStepDet (f : σ → α → Option σ) (P : σ → α → Prop)
    [∀ s a, Decidable (P s a)] :
    ∀ s as, Decidable (EachStep (Det f) P s as)
  | _, [] => .isTrue trivial
  | s, a :: as =>
      match next : f s a with
      | none => decidable_of_iff (P s a) (by simp [eachStep_det_cons, next])
      | some t =>
          have := decidableEachStepDet f P t as
          decidable_of_iff (P s a ∧ EachStep (Det f) P t as) (by simp [eachStep_det_cons, next])

/-- A run of a partial function is its fold. -/
theorem run_det_iff {f : σ → α → Option σ} {s t : σ} {as : List α} :
    Run (Det f) s as t ↔ as.foldlM f s = some t := by
  constructor
  · intro run
    induction run with
    | nil => rfl
    | cons head _ ih =>
        rw [List.foldlM_cons, show f _ _ = some _ from head]
        exact ih
  · intro fold
    induction as generalizing s with
    | nil =>
        obtain rfl : s = t := Option.some.inj fold
        exact .nil s
    | cons a as ih =>
        rw [List.foldlM_cons] at fold
        obtain ⟨next, head, tail⟩ := Option.bind_eq_some_iff.mp fold
        exact .cons head (ih tail)

/-- Along a run that goes through, what is equivalent for the steps it takes is
equivalent for all of them. As in `eachStep_iff`, only the good steps need keep the
invariant. -/
theorem Run.eachStep_iff {f : σ → α → Option σ} {R : σ → α → Prop} {s t : σ} {as : List α}
    (run : Run (Det f) s as t) (start : I s) (guard : EachStep (Det f) R s as)
    (keep : ∀ s a t, I s → R s a → Q s a → f s a = some t → I t)
    (one : ∀ s a t, I s → R s a → f s a = some t → (P s a ↔ Q s a)) :
    EachStep (Det f) P s as ↔ EachStep (Det f) Q s as := by
  induction run with
  | nil => exact Iff.rfl
  | @cons s t u a as head tail ih =>
      have here := one s a t start guard.1 head
      have rest : Q s a → (EachStep (Det f) P t as ↔ EachStep (Det f) Q t as) := fun meets =>
        ih (keep s a t start guard.1 meets head) (guard.2 t head)
      have only : ∀ v, Det f s a v → v = t := fun v other =>
        Option.some.inj (other.symm.trans head)
      constructor
      · rintro ⟨good, later⟩
        have meets := here.mp good
        exact ⟨meets, fun v other => only v other ▸ (rest meets).mp (later t head)⟩
      · rintro ⟨meets, later⟩
        exact ⟨here.mpr meets, fun v other => only v other ▸ (rest meets).mpr (later t head)⟩

end LibSBus.Lib
