import LibSBus.Lib.Traces
import LibSBus.SContacts.Activity
import LibSBus.SContacts.Keys

/-!
One sweep as a whole: which contacts it looks at, what its iterator reads, what it
removes, and what becomes of the rest. It looks at each contact once and removes the
idle ones. But it erases the node its iterator stands at and then advances the
iterator, it never deletes a record, and the entries it erases may be those of
contacts that stay.

The walk is `doCleanUp` written again with the nodes of `peers` it touches. Where the
iterator advances from an erased node the walk goes on to the entry that came next.
-/

namespace LibSBus.SContacts

open Lib

variable {c d : SContacts} {now : Int} {p : Ptr} {gone stay : Set Ptr}

/-- What is read of a node of `peers`: the pointer, or the way to the next node. -/
inductive NodePart
  | second | next
deriving DecidableEq

/-- A node is named by its key. `peers.erase(it)` frees it. -/
abbrev Walking := Writer (List (ObjectAccess SBusPeer NodePart))

/-- The body of the loop. -/
def evictWalking (now : Int) (c : SContacts) (it : Sigma fun _ : SBusPeer => Ptr) :
    Walking SContacts := do
  tell [.read it.1 .second]
  if now - c.heap.lastActivity it.2 > maxAllowedPeerinfoIdleS then tell [.free it.1]
  return evict now c it

/-- The loop, with `it++` after its body. -/
def sweepWalking (now : Int) :
    List (Sigma fun _ : SBusPeer => Ptr) → SContacts → Walking SContacts
  | [], c => pure c
  | it :: rest, c => do
      let c ← evictWalking now c it
      tell [.read it.1 .next]
      sweepWalking now rest c

def doCleanUpWalking (c : SContacts) (now : Int) : Walking SContacts :=
  if now - c.lastCleanUp > minCleanupPeriodS then
    sweepWalking now c.peers.entries { c with lastCleanUp := now }
  else pure c

/-- The ids of the contacts that are looked at, in order. -/
def examined (accesses : List (ObjectAccess SBusPeer NodePart)) : List SBusPeer :=
  accesses.filterMap fun
    | .read id .second => some id
    | _ => none

/-- Each contact of `stay` is found under every key it was found under. -/
def Keyed.Keeps {κ : Type} [DecidableEq κ] (K : Keyed κ) (c d : SContacts) (stay : Set Ptr) :
    Prop :=
  ∀ x ∈ stay, ∀ k, (K.index c).lookup k = some x → (K.index d).lookup k = some x

/-- A sweep at `now` does what it is there for. -/
structure CleansUp (c : SContacts) (now : Int) : Prop where
  once : ∀ p ∈ c.contacts,
    (examined (trace (c.doCleanUpWalking now))).count (c.info p).peer = 1
  advances : ReadsLive (trace (c.doCleanUpWalking now))
  removes : (c.doCleanUp now).contacts = c.contacts \ {p | c.Idle now p}
  deletes : ∀ p ∈ c.contacts, c.Idle now p → p ∉ (c.doCleanUp now).heap.live
  peers : byPeer.Keeps c (c.doCleanUp now) (c.contacts \ {p | c.Idle now p})
  addrs : byAddr.Keeps c (c.doCleanUp now) (c.contacts \ {p | c.Idle now p})
  names : byName.Keeps c (c.doCleanUp now) (c.contacts \ {p | c.Idle now p})
  sockets : bySocket.Keeps c (c.doCleanUp now) (c.contacts \ {p | c.Idle now p})

/-- The only contact of a table has been idle for longer. -/
theorem sweep_advances_from_erased :
    ¬ ∀ ops c now, Run (Det exec) empty ops c → now - c.lastCleanUp > minCleanupPeriodS →
      c.CleansUp now := by
  intro always
  obtain ⟨c, run, due, dead⟩ : ∃ c, Run (Det exec) empty [.add ⟨10, 0, []⟩ 5 1 1 [97]] c ∧
      8000 - c.lastCleanUp > 120 ∧ ¬ ReadsLive (trace (c.doCleanUpWalking 8000)) :=
    ⟨_, run_det_iff.mpr rfl, by decide +kernel, by decide +kernel⟩
  exact dead (always _ c 8000 run due).advances

theorem value_sweepWalking (l : List (Sigma fun _ : SBusPeer => Ptr)) (c : SContacts) :
    value (sweepWalking now l c) = l.foldl (evict now) c := by
  induction l generalizing c with
  | nil => rfl
  | cons it l ih =>
      rw [List.foldl_cons, ← ih]
      simp [sweepWalking, evictWalking]

@[simp] theorem value_doCleanUpWalking : value (c.doCleanUpWalking now) = c.doCleanUp now := by
  unfold doCleanUpWalking doCleanUp
  rw [value_ite, value_sweepWalking]
  rfl

/-- The loop looks at every entry once, in order. -/
theorem examined_sweepWalking (l : List (Sigma fun _ : SBusPeer => Ptr)) (c : SContacts) :
    examined (trace (sweepWalking now l c)) = l.keys := by
  induction l generalizing c with
  | nil => rfl
  | cons it l ih =>
      have rest := ih (evict now c it)
      unfold examined at rest ⊢
      simp only [sweepWalking, evictWalking, trace_bind, value_bind, List.filterMap_append]
      split_ifs <;> simp [rest]

/-- The iterator only ever advances from nodes that are there if and only if nothing
is erased: the first node that is erased is the one it stands at. -/
theorem readsLive_sweepWalking (l : List (Sigma fun _ : SBusPeer => Ptr)) (c : SContacts) :
    ReadsLive (trace (sweepWalking now l c)) ↔ ∀ it ∈ l, ¬ c.Idle now it.2 := by
  induction l generalizing c with
  | nil => simp [sweepWalking]
  | cons it l ih =>
      by_cases idle : c.Idle now it.2
      · have old : now - c.heap.lastActivity it.2 > maxAllowedPeerinfoIdleS := idle
        simp [sweepWalking, evictWalking, old, idle]
      · have fresh : ¬ now - c.heap.lastActivity it.2 > maxAllowedPeerinfoIdleS := idle
        simp [sweepWalking, evictWalking, evict, fresh, idle, ih c]

section Keys

variable {κ : Type} [DecidableEq κ] {K : Keyed κ}

/-- Erased entries are missed by those contacts only that they led to. -/
theorem Keyed.keeps_removed_iff (removed : Removed c d gone) :
    K.Keeps c d stay ↔
      ∀ p ∈ gone, ∀ x ∈ stay, (K.index c).lookup (K.key (c.info p)) ≠ some x := by
  constructor
  · intro keeps p hp x hx entry
    exact ((K.removed removed _ x).mp (keeps x hx _ entry)).2 p hp rfl
  · intro apart x hx k entry
    refine (K.removed removed k x).mpr ⟨entry, fun p hp same => ?_⟩
    exact apart p hp x hx (same ▸ entry)

/-- A contact that has its own entry takes no other along. -/
theorem Keyed.keeps_of_filed (removed : Removed c d gone) (left : ∀ x ∈ stay, x ∉ gone)
    (filed : ∀ p ∈ gone, (K.index c).lookup (K.key (c.info p)) = some p) :
    K.Keeps c d stay := by
  apply keeps_removed_iff removed |>.mpr
  intro p hp x hx entry
  rw [filed p hp] at entry
  exact left x hx (Option.some.inj entry ▸ hp)

end Keys

/-- When a sweep is due, its victims are the idle contacts. -/
theorem Consistent.victims_eq (ok : Consistent c) (due : now - c.lastCleanUp > minCleanupPeriodS) :
    c.victims now = c.contacts ∩ {p | c.Idle now p} := by
  ext p
  constructor
  · intro victim
    exact ⟨ok.victims_subset now victim, victim.2.2⟩
  · rintro ⟨contact, idle⟩
    exact ⟨due, ⟨_, contact.2⟩, idle⟩

/-- Each contact is looked at once, whichever are idle. -/
theorem examined_once (due : now - c.lastCleanUp > minCleanupPeriodS) (contact : p ∈ c.contacts) :
    (examined (trace (c.doCleanUpWalking now))).count (c.info p).peer = 1 := by
  rw [doCleanUpWalking, if_pos due, examined_sweepWalking]
  apply List.count_eq_one_of_mem c.peers.nodupKeys
  exact List.mem_keys_of_mem (AList.mem_lookup_iff.mp contact.2)

/-- The idle ones are removed. -/
theorem Consistent.removes_idle (ok : Consistent c)
    (due : now - c.lastCleanUp > minCleanupPeriodS) :
    (c.doCleanUp now).contacts = c.contacts \ {p | c.Idle now p} := by
  rw [(removed_doCleanUp ok.sound now).contacts_eq (ok.victims_subset now), ok.victims_eq due,
    Set.sdiff_self_inter]

/-- The others keep their id and their address. Which of them keep their name and their
socket is for `keeps_removed_iff` to say. -/
theorem Consistent.keeps_ids_and_addresses (ok : Consistent c) (addressed : Addressed c)
    (now : Int) :
    byPeer.Keeps c (c.doCleanUp now) (c.contacts \ {p | c.Idle now p}) ∧
      byAddr.Keeps c (c.doCleanUp now) (c.contacts \ {p | c.Idle now p}) := by
  have removed := removed_doCleanUp ok.sound now
  have left : ∀ x ∈ c.contacts \ {p | c.Idle now p}, x ∉ c.victims now :=
    fun x stays victim => stays.2 victim.2.2
  constructor
  · apply Keyed.keeps_of_filed removed left
    exact fun p victim => (ok.victims_subset now victim).2
  · apply Keyed.keeps_of_filed removed left
    exact fun p victim => addressed p (ok.victims_subset now victim)

/-- In every table a run reaches, a sweep does what it is there for if and only if it
finds nothing to remove. -/
theorem cleansUp_iff {ops : List Op} (run : Run (Det exec) empty ops c)
    (due : now - c.lastCleanUp > minCleanupPeriodS) :
    c.CleansUp now ↔ ∀ p ∈ c.contacts, ¬ c.Idle now p := by
  obtain ⟨ok, addressed⟩ := addressed_of_run run
  constructor
  · intro cleans p contact idle
    have freed := cleans.deletes p contact idle
    rw [doCleanUp_live] at freed
    exact freed contact.1
  · intro busy
    have removed := removed_doCleanUp ok.sound now
    have nobody : ∀ p, p ∉ c.victims now := fun p victim =>
      busy p (ok.victims_subset now victim) victim.2.2
    obtain ⟨peers, addrs⟩ := ok.keeps_ids_and_addresses addressed now
    refine ⟨fun p contact => examined_once due contact, ?_, ok.removes_idle due, ?_, peers, addrs,
      ?_, ?_⟩
    · rw [doCleanUpWalking, if_pos due, readsLive_sweepWalking]
      intro it mem
      exact busy it.2 (ok.sound.peers _ _ (AList.mem_lookup_iff.mpr mem)).1
    · exact fun p contact idle => absurd idle (busy p contact)
    · exact (Keyed.keeps_removed_iff removed).mpr fun p victim => absurd victim (nobody p)
    · exact (Keyed.keeps_removed_iff removed).mpr fun p victim => absurd victim (nobody p)

/-- Two contacts that are not connected, both seen less than two hours ago. -/
theorem cleansUp_iff_busy :
    ∃ c, Run (Det exec) empty [.add ⟨10, 0, []⟩ (-1) 1 1 [97], .add ⟨11, 1, []⟩ (-1) 2 1 [98]] c ∧
      c.CleansUp 7000 := by
  obtain ⟨c, run, due, fresh⟩ : ∃ c, Run (Det exec) empty
      [.add ⟨10, 0, []⟩ (-1) 1 1 [97], .add ⟨11, 1, []⟩ (-1) 2 1 [98]] c ∧
      7000 - c.lastCleanUp > 120 ∧ ∀ p ∈ c.heap.live, ¬ 7000 - c.heap.lastActivity p > 7200 :=
    ⟨_, run_det_iff.mpr rfl, by decide +kernel, by decide +kernel⟩
  exact ⟨c, run, (cleansUp_iff run due).mpr fun p contact => fresh p contact.1⟩

end LibSBus.SContacts
