import Mathlib.Data.List.AList
import Mathlib.Data.Set.Insert
import Mathlib.Logic.Function.Basic

/-!
Secondary indexes over a store of records. A store maps pointers to records,
some pointers are live, and an index maps keys to pointers. An index is `Sound`
when every entry leads to a live record that carries the entry's key. A pointer
is `Filed` when the entry under its own key leads back to it.

Neither asks keys to be unique: two live records may carry one key, and then at
most one of them is filed. An index is `Complete` when every live record is
filed, which keys must be unique for, and `Covered` when every live record's key
has an entry, whoever it leads to. `Without` says that the keys of some records
were erased. The rules say what erasing, allocating and filing do to these
notions.
-/

namespace LibSBus.Lib

variable {κ π ρ : Type*} [DecidableEq κ]

abbrev Index (κ π : Type*) := AList fun _ : κ => π

namespace Index

/-- Every entry leads to a live record whose key is the key of the entry. -/
def Sound (key : ρ → κ) (store : π → ρ) (live : Set π) (m : Index κ π) : Prop :=
  ∀ k p, m.lookup k = some p → p ∈ live ∧ key (store p) = k

/-- The entry under the record's own key is the record. -/
def Filed (key : ρ → κ) (store : π → ρ) (m : Index κ π) (p : π) : Prop :=
  m.lookup (key (store p)) = some p

/-- Every live record is filed. -/
def Complete (key : ρ → κ) (store : π → ρ) (live : Set π) (m : Index κ π) : Prop :=
  ∀ p ∈ live, Filed key store m p

/-- The key of every live record has an entry. -/
def Covered (key : ρ → κ) (store : π → ρ) (live : Set π) (m : Index κ π) : Prop :=
  ∀ p ∈ live, ∃ q, m.lookup (key (store p)) = some q

/-- No live record that stays has the key of one that goes. -/
def Spares (key : ρ → κ) (store : π → ρ) (live gone : Set π) : Prop :=
  ∀ p ∈ gone, ∀ x ∈ live \ gone, key (store x) ≠ key (store p)

/-- `m'` is `m` without the keys of the records in `gone`. -/
def Without (key : ρ → κ) (store : π → ρ) (gone : Set π) (m m' : Index κ π) : Prop :=
  ∀ k p, m'.lookup k = some p ↔ m.lookup k = some p ∧ ∀ x ∈ gone, key (store x) ≠ k

variable {key : ρ → κ} {store : π → ρ} {live gone gone' : Set π} {m m' m'' : Index κ π}
  {p q x : π} {k l : κ} {r : ρ}

theorem lookup_erase_eq_some :
    (m.erase l).lookup k = some p ↔ k ≠ l ∧ m.lookup k = some p := by
  by_cases same : k = l
  · subst same
    simp
  · simp [same, AList.lookup_erase_ne same]

theorem lookup_insert_eq_some :
    (m.insert l q).lookup k = some p ↔
      (k = l ∧ q = p) ∨ (k ≠ l ∧ m.lookup k = some p) := by
  by_cases same : k = l
  · subst same
    simp
  · simp [same, AList.lookup_insert_ne same]

/-- Two filed records with one key are one record. -/
theorem Filed.unique (hp : Filed key store m p) (hq : Filed key store m q)
    (same : key (store p) = key (store q)) : p = q := by
  rw [Filed, same, hq] at hp
  exact (Option.some.inj hp).symm

theorem Complete.injOn (complete : Complete key store live m) (hp : p ∈ live) (hq : q ∈ live)
    (same : key (store p) = key (store q)) : p = q :=
  (complete p hp).unique (complete q hq) same

/-- A sound and complete index is the inverse of the key on live records. -/
theorem Complete.lookup_eq_some_iff (complete : Complete key store live m)
    (sound : Sound key store live m) :
    m.lookup k = some p ↔ p ∈ live ∧ key (store p) = k := by
  constructor
  · exact sound k p
  · rintro ⟨alive, rfl⟩
    exact complete p alive

theorem sound_empty : Sound key store live (∅ : Index κ π) := by
  intro k p entry
  simp at entry

theorem Sound.mono {live' : Set π} (sound : Sound key store live m) (sub : live ⊆ live') :
    Sound key store live' m := fun k p entry =>
  ⟨sub (sound k p entry).1, (sound k p entry).2⟩

theorem without_nothing : Without key store ∅ m m := by
  intro k p
  simp

/-- Erasing a record's key leaves the index without that record. -/
theorem without_erase (m : Index κ π) (p : π) :
    Without key store {p} m (m.erase (key (store p))) := by
  intro k x
  rw [lookup_erase_eq_some]
  constructor
  · rintro ⟨other, entry⟩
    refine ⟨entry, ?_⟩
    rintro _ rfl same
    exact other same.symm
  · rintro ⟨entry, kept⟩
    exact ⟨fun same => kept p rfl same.symm, entry⟩

theorem Without.trans (first : Without key store gone m m')
    (second : Without key store gone' m' m'') : Without key store (gone ∪ gone') m m'' := by
  intro k p
  rw [second k p, first k p]
  constructor
  · rintro ⟨⟨entry, kept⟩, kept'⟩
    refine ⟨entry, ?_⟩
    rintro x (hx | hx)
    · exact kept x hx
    · exact kept' x hx
  · rintro ⟨entry, kept⟩
    exact ⟨⟨entry, fun x hx => kept x (.inl hx)⟩, fun x hx => kept x (.inr hx)⟩

theorem Without.filed_iff (without : Without key store gone m m') :
    Filed key store m' p ↔ Filed key store m p ∧ ∀ x ∈ gone, key (store x) ≠ key (store p) :=
  without _ p

/-- Nothing leads to a record whose key was erased. -/
theorem Sound.without (sound : Sound key store live m) (without : Without key store gone m m') :
    Sound key store (live \ gone) m' := by
  intro k p entry
  obtain ⟨old, kept⟩ := (without k p).mp entry
  obtain ⟨alive, carries⟩ := sound k p old
  exact ⟨⟨alive, fun hp => kept p hp carries⟩, carries⟩

theorem Complete.without (complete : Complete key store live m)
    (without : Without key store gone m m') (sub : gone ⊆ live) :
    Complete key store (live \ gone) m' := by
  rintro p ⟨alive, left⟩
  refine without.filed_iff.mpr ⟨complete p alive, ?_⟩
  intro x hx same
  obtain rfl := complete.injOn (sub hx) alive same
  exact left hx

theorem Complete.covered (complete : Complete key store live m) : Covered key store live m :=
  fun p hp => ⟨p, complete p hp⟩

/-- Where every key has an entry, a key still has one after some were erased if and
only if it was not among them. -/
theorem Covered.lookup_without_iff (covered : Covered key store live m)
    (without : Without key store gone m m') (hx : x ∈ live) :
    (∃ q, m'.lookup (key (store x)) = some q) ↔
      ∀ p ∈ gone, key (store x) ≠ key (store p) := by
  constructor
  · rintro ⟨q, entry⟩ p hp same
    exact ((without _ q).mp entry).2 p hp same.symm
  · intro spared
    obtain ⟨q, entry⟩ := covered x hx
    exact ⟨q, (without _ q).mpr ⟨entry, fun p hp same => spared p hp same.symm⟩⟩

theorem Covered.without_iff (covered : Covered key store live m)
    (without : Without key store gone m m') :
    Covered key store (live \ gone) m' ↔ Spares key store live gone := by
  constructor
  · intro entries p hp x hx
    exact (covered.lookup_without_iff without hx.1).mp (entries x hx) p hp
  · intro spared x hx
    exact (covered.lookup_without_iff without hx.1).mpr fun p hp => spared p hp x hx

/-- An entry that is made afterwards stands in for the erased ones of its key only. -/
theorem Covered.insert_iff (covered : Covered key store live m)
    (without : Without key store gone m m') :
    Covered key store (live \ gone) (m'.insert k q) ↔
      ∀ p ∈ gone, ∀ x ∈ live \ gone, key (store x) = key (store p) → key (store x) = k := by
  have entry_iff : ∀ l, (∃ y, (m'.insert k q).lookup l = some y) ↔
      l = k ∨ ∃ y, m'.lookup l = some y := by
    intro l
    simp only [lookup_insert_eq_some]
    by_cases own : l = k <;> simp [own]
  simp only [Covered, entry_iff]
  constructor
  · intro entries p hp x hx same
    rcases entries x hx with own | old
    · exact own
    · exact absurd same ((covered.lookup_without_iff without hx.1).mp old p hp)
  · intro mended x hx
    by_cases own : key (store x) = k
    · exact .inl own
    · rw [covered.lookup_without_iff without hx.1]
      exact .inr fun p hp same => own (mended p hp x hx same)

theorem filed_insert_iff (other : x ≠ q) :
    Filed key store (m.insert l q) x ↔ key (store x) ≠ l ∧ Filed key store m x := by
  rw [Filed, lookup_insert_eq_some]
  constructor
  · rintro (⟨_, same⟩ | kept)
    · exact absurd same.symm other
    · exact kept
  · exact Or.inr

section Allocate

variable [DecidableEq π]

theorem filed_update_iff (other : x ≠ q) :
    Filed key (Function.update store q r) m x ↔ Filed key store m x := by
  rw [Filed, Function.update_of_ne other, Filed]

/-- A new record, written where nothing was live, and filed. -/
theorem Sound.file (sound : Sound key store live m) (fresh : q ∉ live) (r : ρ) :
    Sound key (Function.update store q r) (insert q live) (m.insert (key r) q) := by
  intro k x entry
  rcases lookup_insert_eq_some.mp entry with ⟨rfl, rfl⟩ | ⟨_, old⟩
  · exact ⟨Set.mem_insert _ live, by rw [Function.update_self]⟩
  · obtain ⟨alive, carries⟩ := sound k x old
    have other : x ≠ q := by
      rintro rfl
      exact fresh alive
    exact ⟨Set.mem_insert_of_mem q alive, by rw [Function.update_of_ne other, carries]⟩

theorem filed_file : Filed key (Function.update store q r) (m.insert (key r) q) q := by
  rw [Filed, Function.update_self]
  exact AList.lookup_insert m

/-- The records other than the new one that are still filed after it. -/
theorem filed_file_iff (other : x ≠ q) :
    Filed key (Function.update store q r) (m.insert (key r) q) x ↔
      key (store x) ≠ key r ∧ Filed key store m x := by
  rw [filed_update_iff other, filed_insert_iff other]

theorem Complete.file (complete : Complete key store live m) (fresh : q ∉ live)
    (new : ∀ p ∈ live, key (store p) ≠ key r) :
    Complete key (Function.update store q r) (insert q live) (m.insert (key r) q) := by
  rintro x (rfl | hx)
  · exact filed_file
  · refine (filed_file_iff ?_).mpr ⟨new x hx, complete x hx⟩
    rintro rfl
    exact fresh hx

/-- A filed record has its entry, so only the others matter. -/
theorem covered_file_iff (fresh : q ∉ live) :
    Covered key (Function.update store q r) (insert q live) (m.insert (key r) q) ↔
      Covered key store live (m.insert (key r) q) := by
  constructor
  · intro covered x hx
    have entry := covered x (Set.mem_insert_of_mem q hx)
    have other : x ≠ q := fun same => fresh (same ▸ hx)
    rwa [Function.update_of_ne other] at entry
  · rintro covered x (rfl | hx)
    · exact ⟨x, filed_file⟩
    · have other : x ≠ q := fun same => fresh (same ▸ hx)
      rw [Function.update_of_ne other]
      exact covered x hx

end Allocate

end Index

end LibSBus.Lib
