import LibSBus.SContacts.Sweeps
import Mathlib.Order.CompletePartialOrder

/-!
The memory of the records, from the empty table to its destructor. A record is
allocated when a contact is filed and deleted when the contact is erased for an
update. The destructor deletes what `peers` still leads to. What a sweep takes out
of the maps is deleted by nobody. The address strings that `ipnport2addr` allocates,
which nobody deletes either, are not counted.

`delete` of memory that is not live has no defined behaviour, and no result here.
-/

namespace LibSBus

open Lib

/-- A `delete` that is only defined for live memory. -/
def Heap.free (h : Heap) (p : Ptr) : Option Heap := if p ∈ h.live then some (h.delete p) else none

namespace SContacts

variable {c c' d : SContacts} {lost : Set Ptr} {op : Op} {ops : List Op} {p : Ptr}

/-- `~SContacts`: the memory it leaves. -/
def destroy (c : SContacts) : Option Heap := c.peers.entries.foldlM (fun h it => h.free it.2) c.heap

/-- What the call's sweep takes out of the maps, if it runs one. -/
def swept (c : SContacts) (op : Op) : Set Ptr :=
  {p | c.Sweeps op ∧ p ∈ c.contacts ∧ c.Idle op.time p}

/-- What the sweeps of a run take out. -/
def evicted (c : SContacts) : List Op → Set Ptr
  | [] => ∅
  | op :: ops =>
      c.swept op ∪ match c.exec op with
        | none => ∅
        | some c' => c'.evicted ops

/-- Every live record is a contact's or was lost, and not both. -/
structure Accounted (c : SContacts) (lost : Set Ptr) : Prop where
  ok : Consistent c
  live : ↑c.heap.live = c.contacts ∪ lost
  apart : Disjoint c.contacts lost

theorem accounted_empty : Accounted empty ∅ where
  ok := consistent_empty
  live := by simp [contacts, empty]
  apart := by simp

theorem Accounted.lost_live (accounted : Accounted c lost) (gone : p ∈ lost) :
    p ∈ c.heap.live := by
  have live : p ∈ (c.heap.live : Set Ptr) := by
    rw [accounted.live]
    exact .inr gone
  exact live

/-- A sweep moves contacts to what is lost. -/
theorem Accounted.removed {gone : Set Ptr} (accounted : Accounted c lost)
    (removed : Removed c d gone) (sub : gone ⊆ c.contacts) (live : d.heap.live = c.heap.live) :
    Accounted d (lost ∪ gone) where
  ok := accounted.ok.removed removed sub
  live := by
    rw [live, accounted.live, removed.contacts_eq sub]
    ext x
    have kept : x ∈ gone → x ∈ c.contacts := fun here => sub here
    simp only [Set.mem_union, Set.mem_sdiff]
    tauto
  apart := by
    rw [removed.contacts_eq sub, Set.disjoint_union_right]
    exact ⟨accounted.apart.mono_left Set.sdiff_subset, Set.disjoint_sdiff_left⟩

/-- A new record is a contact's. -/
theorem Accounted.file {r : SPeerInfo} {e : CallEnv} (accounted : Accounted c lost)
    (new : ∀ x ∈ c.contacts, (c.info x).peer ≠ r.peer) (ok : Consistent (c.file e r).2) :
    Accounted (c.file e r).2 lost where
  ok := ok
  live := by
    rw [file_live, contacts_file new, Finset.coe_insert, accounted.live, Set.insert_union]
  apart := by
    rw [contacts_file new, Set.disjoint_insert_left]
    exact ⟨fun gone => file_fresh (accounted.lost_live gone), accounted.apart⟩

/-- An update deletes the old record, and nothing is lost. -/
theorem Accounted.erase (accounted : Accounted c lost) (contact : p ∈ c.contacts) (now : Int) :
    Accounted (c.erase now p) lost := by
  have sub := Set.singleton_subset_iff.mpr contact
  have removed := removed_erase c now p
  refine ⟨accounted.ok.removed removed sub, ?_, ?_⟩
  · have live : ((c.erase now p).heap.live : Set Ptr) = ↑c.heap.live \ {p} :=
      Finset.coe_erase p c.heap.live
    rw [live, accounted.live, removed.contacts_eq sub, Set.union_sdiff_distrib]
    congr 1
    apply sdiff_eq_left.mpr
    exact Set.disjoint_singleton_right.mpr (Set.disjoint_left.mp accounted.apart contact)
  · rw [removed.contacts_eq sub]
    exact accounted.apart.mono_left Set.sdiff_subset

theorem Accounted.replace {r : SPeerInfo} {e : CallEnv} (accounted : Accounted c lost)
    (contact : p ∈ c.contacts) (own : r.peer = (c.info p).peer) :
    Accounted ((c.erase e.now p).file e r).2 lost :=
  (accounted.erase contact e.now).file (own ▸ erased_id_free contact e.now)
    (accounted.ok.replace contact own e.now e)

/-- A call that runs no sweep loses nothing. -/
theorem swept_eq_empty (none : ¬ c.Sweeps op) : c.swept op = ∅ := by
  ext p
  simp [swept, none]

/-- The victims of a sweep that a call runs. -/
theorem Consistent.swept_eq (ok : Consistent c)
    (runs : c.Sweeps op ↔ op.time - c.lastCleanUp > minCleanupPeriodS) :
    c.swept op = c.victims op.time := by
  by_cases due : op.time - c.lastCleanUp > minCleanupPeriodS
  · rw [ok.victims_eq due]
    ext p
    simp [swept, runs, due]
  · rw [victims_of_early due]
    exact swept_eq_empty (mt runs.mp due)

/-- What one call does to the account. -/
theorem Accounted.exec (accounted : Accounted c lost) (call : c.exec op = some c') :
    Accounted c' (lost ∪ c.swept op) := by
  have ok := accounted.ok
  have quiet : ¬ c.Sweeps op → lost ∪ c.swept op = lost := by
    intro none
    rw [swept_eq_empty none, Set.union_empty]
  cases op with
  | add e socket ip port name =>
      obtain ⟨⟨q, t⟩, added, rfl⟩ := Option.map_eq_some_iff.mp call
      rcases add_eq_some added with ⟨rfl, known⟩ | ⟨rfl, _, namesake⟩ |
        ⟨missing, unnamed, _, new⟩
      · rw [quiet (by simp [Sweeps, Unknown, known])]
        exact accounted
      · rw [quiet (by simp [Sweeps, Unknown, namesake])]
        exact accounted
      · have runs : c.Sweeps (.add e socket ip port name) ↔
            e.now - c.lastCleanUp > minCleanupPeriodS := by
          simp [Sweeps, Unknown, missing, unnamed, Op.time]
        have cleaned := accounted.removed (removed_bump ok.sound e.now)
          (ok.victims_subset e.now) doCleanUp_live
        rw [show t = _ from congrArg Prod.snd new, ok.swept_eq runs]
        exact cleaned.file (ok.next_id_free bump_lastPeerId) (ok.add_new bump_lastPeerId e)
  | updateSocket e p socket =>
      obtain ⟨contact, call⟩ := Option.ite_none_right_eq_some.mp call
      obtain rfl := Option.some.inj call
      rw [quiet fun sweeps => sweeps.2]
      exact accounted.replace contact rfl
  | updateName e p name =>
      obtain ⟨contact, call⟩ := Option.ite_none_right_eq_some.mp call
      obtain rfl := Option.some.inj call
      rw [quiet fun sweeps => sweeps.2]
      exact accounted.replace contact rfl
  | doCleanUp now =>
      obtain rfl := Option.some.inj call
      rw [ok.swept_eq ⟨And.left, fun due => ⟨due, trivial⟩⟩]
      exact accounted.removed (removed_doCleanUp ok.sound now) (ok.victims_subset now)
        doCleanUp_live
  | getter now p =>
      obtain rfl := Option.some.inj call
      rw [quiet fun sweeps => sweeps.2]
      exact ⟨ok.touch now p, accounted.live, accounted.apart⟩

theorem Accounted.run (accounted : Accounted c lost) (run : Run (Det SContacts.exec) c ops d) :
    Accounted d (lost ∪ c.evicted ops) := by
  induction run generalizing lost with
  | nil =>
      rw [evicted, Set.union_empty]
      exact accounted
  | @cons c c' d op ops head _ ih =>
      have call : c.exec op = some c' := head
      rw [evicted, call, ← Set.union_assoc]
      exact ih (accounted.exec call)

/-- Deleting different live records leaves the others. -/
theorem foldlM_free (l : List Ptr) (h : Heap) (nodup : l.Nodup) (live : ∀ p ∈ l, p ∈ h.live) :
    ∃ h', l.foldlM Heap.free h = some h' ∧ (h'.live : Set Ptr) = ↑h.live \ {p | p ∈ l} := by
  induction l generalizing h with
  | nil => exact ⟨h, rfl, by simp⟩
  | cons p l ih =>
      obtain ⟨once, nodup⟩ := List.nodup_cons.mp nodup
      have freed : h.free p = some (h.delete p) := if_pos (live p List.mem_cons_self)
      have left : ∀ q ∈ l, q ∈ (h.delete p).live := by
        intro q mem
        refine Finset.mem_erase.mpr ⟨?_, live q (List.mem_cons_of_mem p mem)⟩
        rintro rfl
        exact once mem
      obtain ⟨h', deleted, rest⟩ := ih (h.delete p) nodup left
      refine ⟨h', by rw [List.foldlM_cons, freed]; exact deleted, ?_⟩
      rw [rest, Heap.delete, Finset.coe_erase]
      ext q
      simp only [Set.mem_sdiff, Set.mem_singleton_iff, Set.mem_ofPred_eq, List.mem_cons]
      tauto

/-- `peers` leads to each contact once. -/
theorem Consistent.peers_pointers (ok : Consistent c) :
    (c.peers.entries.map Sigma.snd).Nodup ∧
      ∀ p, p ∈ c.peers.entries.map Sigma.snd ↔ p ∈ c.contacts := by
  have keys : (c.peers.entries.map Sigma.snd).map (fun p => (c.info p).peer) =
      c.peers.entries.keys := by
    rw [List.map_map]
    exact List.map_congr_left ok.sound.entry_peer
  constructor
  · apply List.Nodup.of_map (fun p => (c.info p).peer)
    rw [keys]
    exact c.peers.nodupKeys
  · intro p
    rw [List.mem_map]
    constructor
    · rintro ⟨it, mem, rfl⟩
      exact (ok.sound.peers _ _ (AList.mem_lookup_iff.mpr mem)).1
    · intro contact
      exact ⟨⟨_, p⟩, AList.mem_lookup_iff.mp contact.2, rfl⟩

/-- The destructor deletes the contacts, each once. -/
theorem Accounted.destroy (accounted : Accounted c lost) :
    ∃ h, c.destroy = some h ∧ (h.live : Set Ptr) = lost := by
  obtain ⟨nodup, pointers⟩ := accounted.ok.peers_pointers
  have live : ∀ p ∈ c.peers.entries.map Sigma.snd, p ∈ c.heap.live :=
    fun p mem => ((pointers p).mp mem).1
  obtain ⟨h, freed, left⟩ := foldlM_free _ c.heap nodup live
  rw [List.foldlM_map] at freed
  refine ⟨h, freed, ?_⟩
  have deleted : {p | p ∈ c.peers.entries.map Sigma.snd} = c.contacts := Set.ext pointers
  rw [left, deleted, accounted.live, Set.union_sdiff_left]
  exact sdiff_eq_left.mpr accounted.apart.symm

/-- A sweep that the call runs finds no contact idle. -/
def SweepsBusy (c : SContacts) (op : Op) : Prop :=
  c.Sweeps op → ∀ p ∈ c.contacts, ¬ c.Idle op.time p

theorem swept_eq_empty_iff : c.swept op = ∅ ↔ c.SweepsBusy op := by
  rw [Set.eq_empty_iff_forall_notMem]
  constructor
  · exact fun none sweeps p contact idle => none p ⟨sweeps, contact, idle⟩
  · exact fun busy p swept => busy swept.1 p swept.2.1 swept.2.2

theorem evicted_eq_empty_iff (c : SContacts) (ops : List Op) :
    c.evicted ops = ∅ ↔ EachStep (Det SContacts.exec) SweepsBusy c ops := by
  induction ops generalizing c with
  | nil => exact iff_of_true rfl trivial
  | cons op ops ih =>
      rw [evicted, Set.union_empty_iff, swept_eq_empty_iff, eachStep_det_cons]
      apply and_congr_right'
      cases c.exec op with
      | none => simp
      | some c' => simpa using ih c'

/-- The memory of a table over its life. While it lives, the records that are live are
the contacts and those that sweeps took out of the maps. Its destructor deletes the
contacts, each of them once, and leaves the others. So all records are deleted if and
only if no sweep found a contact idle. -/
theorem memory_of_run (run : Run (Det SContacts.exec) empty ops c) :
    ↑c.heap.live = c.contacts ∪ empty.evicted ops ∧ Disjoint c.contacts (empty.evicted ops) ∧
      ∃ h, c.destroy = some h ∧ (h.live : Set Ptr) = empty.evicted ops ∧
        (h.live = ∅ ↔ EachStep (Det SContacts.exec) SweepsBusy empty ops) := by
  have accounted := accounted_empty.run run
  rw [Set.empty_union] at accounted
  obtain ⟨h, freed, left⟩ := accounted.destroy
  refine ⟨accounted.live, accounted.apart, h, freed, left, ?_⟩
  rw [← evicted_eq_empty_iff, ← left, Finset.coe_eq_empty]

/-- A contact is renamed, which gives its memory back, and idle when the next one comes,
which does not. -/
theorem memory_of_run_renamed_and_evicted :
    ∃ c h, Run (Det SContacts.exec) empty
      [.add ⟨10, 0, []⟩ 5 1 1 [97], .updateName ⟨12, 1, []⟩ 0 [98],
       .add ⟨8000, 0, []⟩ 6 2 1 [99]] c ∧
      c.destroy = some h ∧ h.live = {1} ∧
        ¬ EachStep (Det SContacts.exec) SweepsBusy empty [.add ⟨10, 0, []⟩ 5 1 1 [97],
          .updateName ⟨12, 1, []⟩ 0 [98], .add ⟨8000, 0, []⟩ 6 2 1 [99]] := by
  obtain ⟨c, run, freed⟩ : ∃ c, Run (Det SContacts.exec) empty
      [.add ⟨10, 0, []⟩ 5 1 1 [97], .updateName ⟨12, 1, []⟩ 0 [98],
       .add ⟨8000, 0, []⟩ 6 2 1 [99]] c ∧ c.destroy.map Heap.live = some {1} :=
    ⟨_, run_det_iff.mpr rfl, by decide +kernel⟩
  obtain ⟨h, done, live⟩ := Option.map_eq_some_iff.mp freed
  obtain ⟨_, _, h', done', _, all⟩ := memory_of_run run
  obtain rfl := Option.some.inj (done.symm.trans done')
  refine ⟨c, h, run, done, live, fun busy => ?_⟩
  rw [← all, live] at busy
  exact absurd busy (Finset.singleton_ne_empty 1)

end SContacts

end LibSBus
