import LibSBus.Lib.Runs

/-!
Forward simulation between two step functions. A step of the concrete one is
answered by any number of steps of the abstract one, none included, all of them
allowed there, and the two states stay related. Then the same holds of whole runs.
-/

namespace LibSBus.Lib

variable {σ τ α β : Type*} {f : σ → α → Option σ} {g : τ → β → Option τ} {P : σ → α → Prop}
  {Q : τ → β → Prop} {R : σ → τ → Prop} {x y z : τ} {as bs : List β}

/-- A run of `g` whose steps all meet `Q`. -/
def GoodRun (g : τ → β → Option τ) (Q : τ → β → Prop) (x : τ) (bs : List β) (y : τ) : Prop :=
  Run (Det g) x bs y ∧ EachStep (Det g) Q x bs

theorem GoodRun.nil (x : τ) : GoodRun g Q x [] x := ⟨.nil x, trivial⟩

theorem GoodRun.single {b : β} (meets : Q x b) (taken : g x b = some y) :
    GoodRun g Q x [b] y := ⟨.cons taken (.nil y), meets, fun _ _ => trivial⟩

theorem GoodRun.append (first : GoodRun g Q x as y) (second : GoodRun g Q y bs z) :
    GoodRun g Q x (as ++ bs) z := by
  obtain ⟨run, good⟩ := first
  refine ⟨run.append second.1, ?_⟩
  induction run with
  | nil => exact second.2
  | @cons x y' u b as head tail ih =>
      refine ⟨good.1, fun v other => ?_⟩
      -- the step is a function, so there is no other successor
      obtain rfl := Option.some.inj (other.symm.trans head)
      exact ih second (good.2 v head)

/-- Forward simulation of a run. -/
theorem Run.refines {s t : σ} {events : List α} (run : Run (Det f) s events t) (related : R s x)
    (guard : EachStep (Det f) P s events)
    (simulates : ∀ s a t x, R s x → P s a → f s a = some t →
      ∃ bs y, GoodRun g Q x bs y ∧ R t y) :
    ∃ bs y, GoodRun g Q x bs y ∧ R t y := by
  induction run generalizing x with
  | nil => exact ⟨[], x, .nil x, related⟩
  | cons head _ ih =>
      obtain ⟨bs, y, good, related'⟩ := simulates _ _ _ x related guard.1 head
      obtain ⟨more, z, good', last⟩ := ih related' (guard.2 _ head)
      exact ⟨bs ++ more, z, good.append good', last⟩

end LibSBus.Lib
