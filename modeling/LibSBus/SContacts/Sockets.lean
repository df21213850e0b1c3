import LibSBus.SContacts.Addresses

/-!
Sockets. The entry under -1 belongs to whichever unconnected contact was filed
last and is of no use, but a descriptor is never shared, and then its entry is
that of the contact that holds it. An operation keeps this when it records a
descriptor no contact holds.
-/

namespace LibSBus.SContacts

open Lib

variable {c d : SContacts} {gone : Set Ptr} {e : CallEnv} {now : Int} {p q x : Ptr}
  {r : SPeerInfo} {s : SocketType}

/-- A contact that holds a descriptor is found under it. -/
def SocketsFiled (c : SContacts) : Prop :=
  ∀ p ∈ c.contacts, 0 ≤ (c.info p).socket → Index.Filed SPeerInfo.socket c.heap.cell c.socket2peer p

/-- No contact holds the descriptor. -/
def Unheld (c : SContacts) (s : SocketType) : Prop :=
  0 ≤ s → ∀ x ∈ c.contacts, (c.info x).socket ≠ s

theorem socketsFiled_empty : SocketsFiled empty := fun _ contact => by
  simp [contacts, empty] at contact

/-- A descriptor is held by at most one contact. -/
theorem SocketsFiled.unique (filed : SocketsFiled c) (hp : p ∈ c.contacts) (hq : q ∈ c.contacts)
    (holds : 0 ≤ (c.info p).socket) (same : (c.info p).socket = (c.info q).socket) : p = q :=
  (filed p hp holds).unique (filed q hq (same ▸ holds)) same

theorem SocketsFiled.unheld (filed : SocketsFiled c) (missing : c.findFromSocket s = none) :
    c.Unheld s := by
  rintro valid x contact rfl
  have found := filed x contact valid
  rw [Index.Filed, ← findFromSocket, missing] at found
  cases found

theorem SocketsFiled.removed (filed : SocketsFiled c) (removed : Removed c d gone)
    (sub : gone ⊆ c.contacts) : SocketsFiled d := by
  intro x
  rw [removed.contacts_eq sub, info, removed.cell]
  rintro ⟨contact, left⟩ holds
  refine removed.sockets.filed_iff.mpr ⟨filed x contact holds, ?_⟩
  intro y hy same
  exact left (filed.unique contact (sub hy) holds same.symm ▸ hy)

theorem SocketsFiled.file (filed : SocketsFiled c)
    (id : ∀ x ∈ c.contacts, (c.info x).peer ≠ r.peer) (unheld : c.Unheld r.socket) :
    SocketsFiled (c.file e r).2 := by
  intro x
  rw [contacts_file id]
  rintro (rfl | contact)
  · intro _
    rw [file_cell]
    exact Index.filed_file
  · rw [info_file_of_live contact.1, file_cell]
    intro holds
    have other : x ≠ (c.file e r).1 := by
      rintro rfl
      exact file_fresh contact.1
    refine (Index.filed_file_iff other).mpr ⟨fun same => ?_, filed x contact holds⟩
    exact unheld (same ▸ holds) x contact same

/-- A descriptor that only `p` may hold is held by nobody once `p` is erased. -/
theorem unheld_erase (contact : p ∈ c.contacts)
    (others : 0 ≤ s → ∀ x ∈ c.contacts, x ≠ p → (c.info x).socket ≠ s) :
    (c.erase now p).Unheld s := by
  intro valid x
  rw [(removed_erase c now p).contacts_eq (Set.singleton_subset_iff.mpr contact)]
  rintro ⟨hx, other⟩
  exact others valid x hx other

theorem SocketsFiled.replace (filed : SocketsFiled c) (contact : p ∈ c.contacts)
    (same : r.peer = (c.info p).peer)
    (others : 0 ≤ r.socket → ∀ x ∈ c.contacts, x ≠ p → (c.info x).socket ≠ r.socket)
    (now : Int) (e : CallEnv) : SocketsFiled ((c.erase now p).file e r).2 := by
  refine (filed.removed (removed_erase c now p) (Set.singleton_subset_iff.mpr contact)).file ?_
    (unheld_erase contact others)
  rw [same]
  exact erased_id_free contact now

theorem SocketsFiled.add_new (filed : SocketsFiled c) (ok : Consistent c)
    (own : r.peer = c.lastPeerId + 1) (unheld : c.Unheld r.socket) (e : CallEnv) :
    SocketsFiled ((c.doCleanUp e.now).bump.file e r).2 := by
  have removed := removed_bump ok.sound e.now
  have sub := ok.victims_subset e.now
  apply (filed.removed removed sub).file (ok.next_id_free own)
  intro valid x
  rw [removed.contacts_eq sub, info, removed.cell]
  exact fun contact => unheld valid x contact.1

/-- The check `processSMsg` makes before it records a socket: the socket is
invalid, or it is a descriptor under which nobody is found. -/
def RecordsFree (c : SContacts) : Op → Prop
  | .add _ socket _ _ _ | .updateSocket _ _ socket =>
      socket = invalidSocket ∨ (0 ≤ socket ∧ c.findFromSocket socket = none)
  | _ => True

instance (c : SContacts) : DecidablePred c.RecordsFree
  | .add _ _ _ _ _ | .updateSocket _ _ _ => inferInstanceAs (Decidable (_ ∨ _ ∧ _))
  | .updateName _ _ _ | .doCleanUp _ | .getter _ _ => .isTrue trivial

/-- A socket that passes the check is held by no contact. -/
theorem SocketsFiled.unheld_of_free (filed : SocketsFiled c)
    (free : s = invalidSocket ∨ (0 ≤ s ∧ c.findFromSocket s = none)) : c.Unheld s := by
  rcases free with rfl | ⟨_, missing⟩
  · intro valid
    exact absurd valid (by decide)
  · exact filed.unheld missing

theorem SocketsFiled.exec {op : Op} {c' : SContacts} (filed : SocketsFiled c) (ok : Consistent c)
    (free : c.RecordsFree op) (call : c.exec op = some c') : SocketsFiled c' := by
  cases op with
  | add e socket ip port name =>
      obtain ⟨⟨q, t⟩, added, rfl⟩ := Option.map_eq_some_iff.mp call
      rcases add_eq_some added with ⟨rfl, _⟩ | ⟨rfl, _⟩ | ⟨_, _, _, new⟩
      · exact filed
      · exact filed
      · rw [show t = _ from congrArg Prod.snd new]
        apply filed.add_new ok bump_lastPeerId
        exact filed.unheld_of_free free
  | updateSocket e p socket =>
      obtain ⟨contact, call⟩ := Option.ite_none_right_eq_some.mp call
      obtain rfl := Option.some.inj call
      have unheld := filed.unheld_of_free free
      exact filed.replace (r := { c.info p with socket := socket, name := e.stale }) contact rfl
        (fun valid x hx _ => unheld valid x hx) e.now e
  | updateName e p name =>
      obtain ⟨contact, call⟩ := Option.ite_none_right_eq_some.mp call
      obtain rfl := Option.some.inj call
      apply filed.replace (r := { c.info p with name := name }) contact rfl
      intro valid x hx other same
      exact other (filed.unique hx contact (same ▸ valid) same)
  | doCleanUp now =>
      obtain rfl := Option.some.inj call
      exact filed.removed (removed_doCleanUp ok.sound now) (ok.victims_subset now)
  | getter now p =>
      obtain rfl := Option.some.inj call
      exact filed

/-- With the entries in order, a descriptor leads to the contact that holds it. -/
theorem SocketsFiled.found_iff (filed : SocketsFiled c) (ok : Consistent c) (valid : 0 ≤ s) :
    c.findFromSocket s = some p ↔ p ∈ c.contacts ∧ (c.info p).socket = s := by
  constructor
  · exact ok.sound.sockets s p
  · rintro ⟨contact, rfl⟩
    exact filed p contact valid

/-- In every run in which only free sockets are recorded, no descriptor is held
by two contacts, and each is found to lead to the contact that holds it. -/
theorem descriptors_found {ops : List Op} (run : Run (Det exec) empty ops c)
    (free : EachStep (Det exec) RecordsFree empty ops) :
    (∀ p ∈ c.contacts, ∀ q ∈ c.contacts, 0 ≤ (c.info p).socket →
      (c.info p).socket = (c.info q).socket → p = q) ∧
    ∀ s, 0 ≤ s → ∀ p, c.findFromSocket s = some p ↔ p ∈ c.contacts ∧ (c.info p).socket = s := by
  obtain ⟨ok, filed⟩ := run.guarded_invariant (I := fun c => Consistent c ∧ SocketsFiled c)
    ⟨consistent_empty, socketsFiled_empty⟩ free
    fun c op c' ⟨ok, filed⟩ free call => ⟨ok.exec call, filed.exec ok free call⟩
  exact ⟨fun p hp q hq valid => filed.unique hp hq valid,
    fun s valid p => filed.found_iff ok valid⟩

/-- A contact loses its descriptor, another one gets it, and a third is added
without one. -/
theorem descriptors_found_reused :
    ∃ c, Run (Det exec) empty
      [.add ⟨10, 0, []⟩ 5 1 1 [97], .updateSocket ⟨11, 1, [97]⟩ 0 (-1),
       .add ⟨12, 0, []⟩ 5 2 1 [98], .add ⟨13, 2, []⟩ (-1) 3 1 [99]] c ∧
      ∀ s, 0 ≤ s → ∀ p,
        c.findFromSocket s = some p ↔ p ∈ c.contacts ∧ (c.info p).socket = s := by
  have run := run_det_iff.mpr
    (rfl : [Op.add ⟨10, 0, []⟩ 5 1 1 [97], .updateSocket ⟨11, 1, [97]⟩ 0 (-1),
       .add ⟨12, 0, []⟩ 5 2 1 [98], .add ⟨13, 2, []⟩ (-1) 3 1 [99]].foldlM exec empty = some _)
  exact ⟨_, run, (descriptors_found run (by decide +kernel)).2⟩

end LibSBus.SContacts
