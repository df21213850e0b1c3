import LibSBus.SContacts.Indexes

/-!
The stamp of the last activity, by which the sweep goes. Every getter sets it, and
`show` reads every contact through its getters each time one is filed; the sweep
itself stamps only what it removes. A sweep visits each entry once.
-/

namespace LibSBus.SContacts

open Lib

variable {c : SContacts} {e : CallEnv} {now : Int} {p q x : Ptr} {r : SPeerInfo} {op : Op}

/-- The time of a call. -/
def Op.time : Op → Int
  | .add e _ _ _ _ => e.now
  | .updateSocket e _ _ => e.now
  | .updateName e _ _ => e.now
  | .doCleanUp now => now
  | .getter now _ => now

/-- No contact has the address or the name, so that `add` makes a new one. -/
def Unknown (c : SContacts) (ip : IP) (port : Port) (name : CString) : Prop :=
  c.findIpPort ip port = none ∧ c.findName name = none

instance (c : SContacts) (ip : IP) (port : Port) (name : CString) :
    Decidable (c.Unknown ip port name) := inferInstanceAs (Decidable (_ ∧ _))

/-- The call files a record, and then lists all contacts. -/
def Lists (c : SContacts) : Op → Prop
  | .add _ _ ip port name => c.Unknown ip port name
  | .updateSocket _ _ _ => True
  | .updateName _ _ _ => True
  | .doCleanUp _ => False
  | .getter _ _ => False

instance (c : SContacts) (op : Op) : Decidable (c.Lists op) := by
  cases op <;> unfold Lists <;> infer_instance

/-- The call runs a clean-up sweep. -/
def Sweeps (c : SContacts) (op : Op) : Prop :=
  op.time - c.lastCleanUp > minCleanupPeriodS ∧
    match op with
    | .add _ _ ip port name => c.Unknown ip port name
    | .doCleanUp _ => True
    | _ => False

instance (c : SContacts) (op : Op) : Decidable (c.Sweeps op) := by
  unfold Sweeps
  cases op <;> infer_instance

private theorem foldl_touch_lastActivity (l : List (Sigma fun _ : SBusPeer => Ptr)) (h : Heap)
    (visited : h.lastActivity x = now ∨ ∃ it ∈ l, it.2 = x) :
    (l.foldl (fun h it => h.touch now it.2) h).lastActivity x = now := by
  induction l generalizing h with
  | nil => simpa using visited
  | cons it l ih =>
      apply ih
      by_cases here : x = it.2
      · rw [here]
        exact .inl (Function.update_self _ _ _)
      · rcases visited with stamped | ⟨other, mem, same⟩
        · exact .inl ((Function.update_of_ne here _ _).trans stamped)
        · rcases List.mem_cons.mp mem with rfl | later
          · exact absurd same.symm here
          · exact .inr ⟨other, later, same⟩

/-- Filing a record stamps every record that has an entry. -/
theorem file_lastActivity {id : SBusPeer} (entry : (c.file e r).2.findPeer id = some x) :
    (c.file e r).2.heap.lastActivity x = e.now := by
  apply foldl_touch_lastActivity
  exact .inr ⟨⟨id, x⟩, AList.mem_lookup_iff.mp entry, rfl⟩

private theorem foldl_evict_lastActivity (l : List (Sigma fun _ : SBusPeer => Ptr))
    (c : SContacts) (spared : (∃ it ∈ l, it.2 = x) → ¬ c.Idle now x) :
    (l.foldl (evict now) c).heap.lastActivity x = c.heap.lastActivity x := by
  induction l generalizing c with
  | nil => rfl
  | cons it l ih =>
      have same : (evict now c it).heap.lastActivity x = c.heap.lastActivity x := by
        by_cases here : x = it.2
        · rw [evict, if_neg]
          rw [← here]
          exact spared ⟨it, List.mem_cons_self, here.symm⟩
        · exact evict_lastActivity here
      rw [List.foldl_cons, ih, same]
      rintro ⟨other, mem, rfl⟩ idle
      rw [Idle, same] at idle
      exact spared ⟨other, List.mem_cons_of_mem it mem, rfl⟩ idle

theorem doCleanUp_lastActivity (spared : x ∉ c.victims now) :
    (c.doCleanUp now).heap.lastActivity x = c.heap.lastActivity x := by
  unfold doCleanUp
  split
  case isTrue due =>
    apply foldl_evict_lastActivity
    rintro ⟨it, mem, rfl⟩ idle
    exact spared ⟨due, ⟨it.1, AList.mem_lookup_iff.mpr mem⟩, idle⟩
  case isFalse early => rfl

/-- The entries a sweep leaves are those of the records that were not idle. -/
theorem IndexesSound.findPeer_doCleanUp {valid : Set Ptr} {id : SBusPeer}
    (sound : IndexesSound c valid) (due : now - c.lastCleanUp > minCleanupPeriodS) :
    (c.doCleanUp now).findPeer id = some x ↔ c.findPeer id = some x ∧ ¬ c.Idle now x := by
  refine ((removed_doCleanUp sound now).peers id x).trans (and_congr_right fun entry => ?_)
  constructor
  · intro apart idle
    exact apart x ⟨due, ⟨id, entry⟩, idle⟩ (sound.peers id x entry).2
  · rintro busy y ⟨_, ⟨k, other⟩, idle⟩ same
    obtain rfl : k = id := (sound.peers k y other).2.symm.trans same
    rw [other] at entry
    exact busy (Option.some.inj entry ▸ idle)

private theorem foldl_evict_live (l : List (Sigma fun _ : SBusPeer => Ptr)) (c : SContacts) :
    (l.foldl (evict now) c).heap.live = c.heap.live := by
  induction l generalizing c with
  | nil => rfl
  | cons it l ih =>
      rw [List.foldl_cons, ih]
      unfold evict
      split <;> rfl

/-- A sweep frees no memory. -/
theorem doCleanUp_live : (c.doCleanUp now).heap.live = c.heap.live := by
  unfold doCleanUp
  split
  case isTrue due => exact foldl_evict_live _ _
  case isFalse early => rfl

end LibSBus.SContacts
