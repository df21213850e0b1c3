import LibSBus.Lib.Index

/-!
What an index shows when one looks through the pointers. The `view` of an index
takes a key to the id of the record its entry leads to, so that neither the
store nor the pointers are seen any more. Filing a record updates the view at
the record's key, and erasing keys takes them out of it, whatever address the
new record is put at.
-/

namespace LibSBus.Lib.Index

variable {κ π ρ ι β : Type*} [DecidableEq κ]

/-- What is shown of the record an entry leads to. -/
def view (f : π → β) (m : Index κ π) (k : κ) : Option β := (m.lookup k).map f

variable {key : ρ → κ} {store : π → ρ} {live gone : Set π} {m m' : Index κ π} {f g : π → β}
  {k : κ} {p q : π} {b : β}

theorem view_eq_some_iff : view f m k = some b ↔ ∃ p, m.lookup k = some p ∧ f p = b :=
  Option.map_eq_some_iff

/-- Only the records that entries lead to matter. -/
theorem view_congr (same : ∀ p, m.lookup k = some p → f p = g p) : view f m k = view g m k := by
  unfold view
  cases entry : m.lookup k with
  | none => rfl
  | some p => exact congrArg some (same p entry)

theorem view_insert (q : π) :
    view f (m.insert k q) = Function.update (view f m) k (some (f q)) := by
  funext l
  by_cases same : l = k
  · subst same
    simp [view]
  · simp [view, same, AList.lookup_insert_ne same]

open Classical in
/-- An erased key shows nothing, and the other keys show what they did. -/
theorem view_without (without : Without key store gone m m') :
    view f m' k = if ∃ p ∈ gone, key (store p) = k then none else view f m k := by
  split
  case isTrue erased =>
    obtain ⟨x, hx, carries⟩ := erased
    rw [view, Option.map_eq_none_iff, Option.eq_none_iff_forall_ne_some]
    intro p entry
    exact ((without k p).mp entry).2 x hx carries
  case isFalse kept =>
    have same : m'.lookup k = m.lookup k := by
      apply Option.ext
      intro p
      rw [without k p]
      exact and_iff_left fun x hx carries => kept ⟨x, hx, carries⟩
    rw [view, view, same]

end LibSBus.Lib.Index
