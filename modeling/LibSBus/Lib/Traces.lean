import Mathlib.Control.Monad.Writer

/-!
Computations that tell what they do beside what they return. A `Writer` that
appends to a list is one; `value` and `trace` are its two halves, and a property
of all that is told splits along `bind`.

One use is memory that is given back: the trace says what is read and what is
freed, and nothing may be read that was freed before, whatever is put at its
address later.
-/

namespace LibSBus.Lib

universe u

section Values

variable {ω α β : Type u}

/-- What a computation returns. -/
def value (x : Writer (List ω) α) : α := x.run.1

/-- What it tells, in order. -/
def trace (x : Writer (List ω) α) : List ω := x.run.2

/-- Everything that is told meets `P`. -/
def Tells (P : ω → Prop) (x : Writer (List ω) α) : Prop := ∀ told ∈ trace x, P told

instance (P : ω → Prop) [DecidablePred P] (x : Writer (List ω) α) : Decidable (Tells P x) :=
  inferInstanceAs (Decidable (∀ told ∈ trace x, P told))

variable {P : ω → Prop} {x : Writer (List ω) α} {f : α → Writer (List ω) β}

@[simp] theorem value_pure (a : α) : value (pure a : Writer (List ω) α) = a := rfl

@[simp] theorem value_bind : value (x >>= f) = value (f (value x)) := rfl

@[simp] theorem value_ite {c : Prop} [Decidable c] (x y : Writer (List ω) α) :
    value (if c then x else y) = if c then value x else value y := apply_ite value c x y

@[simp] theorem trace_pure (a : α) : trace (pure a : Writer (List ω) α) = [] := rfl

@[simp] theorem trace_bind : trace (x >>= f) = trace x ++ trace (f (value x)) := rfl

@[simp] theorem trace_tell (told : List ω) :
    trace (tell told : Writer (List ω) PUnit) = told := rfl

@[simp] theorem tells_pure (a : α) : Tells P (pure a : Writer (List ω) α) := by simp [Tells]

@[simp] theorem tells_tell (told : List ω) :
    Tells P (tell told : Writer (List ω) PUnit) ↔ ∀ w ∈ told, P w := by simp [Tells]

@[simp] theorem tells_bind : Tells P (x >>= f) ↔ Tells P x ∧ Tells P (f (value x)) := by
  simp [Tells, or_imp, forall_and]

@[simp] theorem tells_ite {c : Prop} [Decidable c] (x y : Writer (List ω) α) :
    Tells P (if c then x else y) ↔ if c then Tells P x else Tells P y :=
  iff_of_eq (apply_ite (Tells P) c x y)

end Values

section Lifetimes

/-- An access to an object: a part of it is read, or it is freed. -/
inductive ObjectAccess (ρ φ : Type u)
  | read (object : ρ) (part : φ)
  | free (object : ρ)

variable {ρ φ : Type u} [DecidableEq ρ]

/-- The objects that are read, each with whether it was freed before. -/
def reads : List ρ → List (ObjectAccess ρ φ) → List (ρ × Bool)
  | _, [] => []
  | freed, .read object _ :: rest => (object, decide (object ∈ freed)) :: reads freed rest
  | freed, .free object :: rest => reads (object :: freed) rest

/-- No object is read after it was freed. -/
def ReadsLive (accesses : List (ObjectAccess ρ φ)) : Prop := ∀ r ∈ reads [] accesses, r.2 = false

instance (accesses : List (ObjectAccess ρ φ)) : Decidable (ReadsLive accesses) :=
  inferInstanceAs (Decidable (∀ r ∈ _, _))

variable {object : ρ} {part : φ} {accesses : List (ObjectAccess ρ φ)}

@[simp] theorem readsLive_nil : ReadsLive ([] : List (ObjectAccess ρ φ)) := by
  simp [ReadsLive, reads]

@[simp] theorem readsLive_read :
    ReadsLive (.read object part :: accesses) ↔ ReadsLive accesses := by
  simp [ReadsLive, reads]

@[simp] theorem not_readsLive_free_read :
    ¬ ReadsLive (.free object :: .read object part :: accesses) := by
  simp [ReadsLive, reads]

end Lifetimes

end LibSBus.Lib
