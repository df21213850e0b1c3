import LibSBus.SContacts.Keys

/-!
Names. `name2peer` has one entry for a name, but a rename can give one name to
several contacts, and then the entry belongs to the one that was filed last.
Renaming or evicting any of them erases the entry, whoever it belongs to, so
that the others can no longer be found by their name. What is proved is that
this is the only way to lose a name.
-/

namespace LibSBus.SContacts

open Lib

variable {c d : SContacts} {gone : Set Ptr} {e : CallEnv} {x : Ptr} {r : SPeerInfo} {op : Op}

/-- For every name a live contact carries, `find(name)` returns a live contact
that carries it. -/
def NamesFound (c : SContacts) : Prop :=
  ∀ n, (∃ p ∈ c.contacts, (c.info p).name = n) →
    ∃ q ∈ c.contacts, (c.info q).name = n ∧ c.findName n = some q

/-- One contact is renamed to the name of another and back again. -/
theorem rename_loses_namesake :
    ¬ ∀ ops c, Run (Det exec) empty ops c → NamesFound c := by
  intro always
  obtain ⟨c, run, carries, lost⟩ : ∃ c, Run (Det exec) empty
      [.add ⟨10, 0, []⟩ 5 1 1 [97], .add ⟨11, 1, []⟩ 6 2 1 [98],
       .updateName ⟨12, 2, []⟩ 1 [97], .updateName ⟨13, 1, []⟩ 2 [98]] c ∧
      (0 ∈ c.contacts ∧ (c.info 0).name = [97]) ∧ c.findName [97] = none :=
    ⟨_, run_det_iff.mpr rfl, by decide +kernel, by decide +kernel⟩
  obtain ⟨q, _, _, found⟩ := always _ c run [97] ⟨0, carries⟩
  rw [lost] at found
  cases found

/-- No contact that stays carries the name of one that is removed. -/
def SparesNames (c : SContacts) (gone : Set Ptr) : Prop :=
  ∀ p ∈ gone, ∀ x ∈ c.contacts \ gone, (c.info x).name ≠ (c.info p).name

/-- When a call loses no name: a contact that gives up its name, because it is
renamed or re-entered under another one or evicted, has no namesake left. -/
def KeepsNames (c : SContacts) : Op → Prop
  | .add e _ ip port name =>
      (∀ x ∈ c.contacts, ¬ ((c.info x).ip = ip ∧ (c.info x).port = port)) →
        (∀ x ∈ c.contacts, (c.info x).name ≠ name) → c.lastPeerId ≠ intMax →
        c.SparesNames (c.victims e.now)
  | .updateSocket e p _ => p ∈ c.contacts → e.stale = (c.info p).name ∨ c.SparesNames {p}
  | .updateName _ p name => p ∈ c.contacts → name = (c.info p).name ∨ c.SparesNames {p}
  | .doCleanUp now => c.SparesNames (c.victims now)
  | .getter _ _ => True

theorem namesFound_empty : NamesFound empty := by
  rintro n ⟨p, contact, _⟩
  simp [contacts, empty] at contact

theorem namesFound_iff (ok : Consistent c) : NamesFound c ↔ byName.Covers c := by
  constructor
  · intro found x contact
    obtain ⟨q, _, _, entry⟩ := found _ ⟨x, contact, rfl⟩
    exact ⟨q, entry⟩
  · rintro covers n ⟨x, contact, rfl⟩
    obtain ⟨q, entry⟩ := covers x contact
    obtain ⟨live, carries⟩ := ok.sound.names _ q entry
    exact ⟨q, live, carries, entry⟩

theorem NamesFound.findName_eq_none_iff (found : NamesFound c) (ok : Consistent c)
    {name : CString} : c.findName name = none ↔ ∀ x ∈ c.contacts, (c.info x).name ≠ name := by
  constructor
  · intro missing x contact carries
    obtain ⟨q, _, _, entry⟩ := found name ⟨x, contact, carries⟩
    rw [missing] at entry
    cases entry
  · intro nobody
    rw [Option.eq_none_iff_forall_ne_some]
    intro q entry
    obtain ⟨live, carries⟩ := ok.sound.names _ q entry
    exact nobody q live carries

theorem Addressed.findIpPort_eq_none_iff (addressed : Addressed c) (ok : Consistent c)
    {ip : IP} {port : Port} : c.findIpPort ip port = none ↔
      ∀ x ∈ c.contacts, ¬ ((c.info x).ip = ip ∧ (c.info x).port = port) := by
  rw [Option.eq_none_iff_forall_ne_some]
  apply forall_congr'
  intro x
  rw [ne_eq, findIpPort, addressed.lookup_eq_some_iff ok.sound.addrs, SPeerInfo.getAddr,
    ipnport2addr_inj, not_and]

theorem namesFound_removed_iff (ok : Consistent c) (found : NamesFound c)
    (removed : Removed c d gone) (sub : gone ⊆ c.contacts) :
    NamesFound d ↔ c.SparesNames gone := by
  rw [namesFound_iff (ok.removed removed sub)]
  exact Keyed.covers_removed_iff ((namesFound_iff ok).mp found) removed sub

theorem namesFound_replace_iff {p : Ptr} (ok : Consistent c) (found : NamesFound c)
    (contact : p ∈ c.contacts) (same : SameContact r (c.info p)) :
    NamesFound ((c.erase e.now p).file e r).2 ↔
      r.name = (c.info p).name ∨ c.SparesNames {p} := by
  rw [namesFound_iff (ok.replace contact same.1 e.now e)]
  exact Keyed.covers_replace_iff ((namesFound_iff ok).mp found) contact same.1

/-- A new contact's name was nobody's, so filing it mends nothing. -/
theorem namesFound_add_iff (ok : Consistent c) (found : NamesFound c)
    (own : r.peer = c.lastPeerId + 1) (nobody : ∀ x ∈ c.contacts, (c.info x).name ≠ r.name) :
    NamesFound ((c.doCleanUp e.now).bump.file e r).2 ↔ c.SparesNames (c.victims e.now) := by
  rw [namesFound_iff (ok.add_new own e)]
  exact Keyed.covers_add_iff ((namesFound_iff ok).mp found) (removed_bump ok.sound e.now)
    (ok.victims_subset e.now) (ok.next_id_free own) nobody

/-- A call that is only made on a contact. -/
theorem after_call_iff {contact kept : Prop} [Decidable contact] {G : SContacts → Prop}
    {t : SContacts} (iff : contact → (G t ↔ kept)) :
    (∀ c', (if contact then some t else none) = some c' → G c') ↔ (contact → kept) := by
  constructor
  · intro all made
    exact (iff made).mp (all _ (if_pos made))
  · intro kept c' call
    obtain ⟨made, call⟩ := Option.ite_none_right_eq_some.mp call
    exact Option.some.inj call ▸ (iff made).mpr (kept made)

/-- `add` changes the table only for a contact it does not know. -/
theorem after_add_iff {G : SContacts → Prop} {socket : SocketType} {ip : IP} {port : Port}
    {name : CString} (before : G c) :
    (∀ c', c.exec (.add e socket ip port name) = some c' → G c') ↔
      (c.findIpPort ip port = none → c.findName name = none → c.lastPeerId ≠ intMax →
        G ((c.doCleanUp e.now).bump.file e
          { peer := (c.doCleanUp e.now).bump.lastPeerId, ip, port, socket, name }).2) := by
  constructor
  · intro all missing unnamed more
    apply all
    rw [exec, add_of_new missing unnamed more]
    rfl
  · intro filed c' call
    obtain ⟨⟨q, t⟩, added, rfl⟩ := Option.map_eq_some_iff.mp call
    rcases add_eq_some added with ⟨rfl, _⟩ | ⟨rfl, _⟩ | ⟨missing, unnamed, more, new⟩
    · exact before
    · exact before
    · rw [show t = _ from congrArg Prod.snd new]
      exact filed missing unnamed more

/-- One call leaves every name found exactly when it meets the condition. -/
theorem namesFound_exec_iff (ok : Consistent c) (addressed : Addressed c)
    (found : NamesFound c) (op : Op) :
    (∀ c', c.exec op = some c' → NamesFound c') ↔ c.KeepsNames op := by
  cases op with
  | add e socket ip port name =>
      rw [after_add_iff found, KeepsNames, ← addressed.findIpPort_eq_none_iff ok,
        ← found.findName_eq_none_iff ok]
      refine forall_congr' fun missing => forall_congr' fun unnamed => forall_congr' fun more => ?_
      exact namesFound_add_iff ok found bump_lastPeerId
        ((found.findName_eq_none_iff ok).mp unnamed)
  | updateSocket e p socket =>
      exact after_call_iff fun contact => namesFound_replace_iff ok found contact ⟨rfl, rfl, rfl⟩
  | updateName e p name =>
      exact after_call_iff fun contact => namesFound_replace_iff ok found contact ⟨rfl, rfl, rfl⟩
  | doCleanUp now =>
      rw [KeepsNames, ← namesFound_removed_iff ok found (removed_doCleanUp ok.sound now)
        (ok.victims_subset now)]
      exact ⟨fun all => all _ rfl, fun kept c' call => Option.some.inj call ▸ kept⟩
  | getter now p =>
      refine iff_of_true (fun c' call => ?_) trivial
      obtain rfl := Option.some.inj call
      exact found

/-- In all states a run reaches every name a live contact carries is found if
and only if every call meets the condition. -/
theorem names_found_iff (ops : List Op) :
    Always (Det exec) NamesFound empty ops ↔ EachStep (Det exec) KeepsNames empty ops := by
  rw [always_iff namesFound_empty]
  refine eachStep_iff (I := fun c => Consistent c ∧ Addressed c ∧ NamesFound c)
    ⟨consistent_empty, addressed_empty, namesFound_empty⟩ ?_ ?_
  · rintro c op _ c' ⟨ok, addressed, found⟩ keeps call
    exact ⟨ok.exec call, (evolves_exec ok addressed call).addressed,
      (namesFound_exec_iff ok addressed found op).mpr keeps c' call⟩
  · rintro c op _ ⟨ok, addressed, found⟩
    exact namesFound_exec_iff ok addressed found op

end LibSBus.SContacts
