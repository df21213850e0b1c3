import LibSBus.SContacts.Indexes

/-!
Ids and addresses. `addr2peer` stays complete because addresses, unlike names
and sockets, are never shared: `add` looks for the address first and an update
keeps it. That the index is keyed by a rendered text does no harm, since the
text of an address determines it.
-/

namespace LibSBus.SContacts

open Lib

variable {c c' d : SContacts} {gone : Set Ptr} {e : CallEnv} {now : Int} {p q : Ptr} {op : Op}
  {r : SPeerInfo}

/-- Every live contact is found under its address. -/
def Addressed (c : SContacts) : Prop :=
  Index.Complete SPeerInfo.getAddr c.heap.cell c.contacts c.addr2peer

theorem addressed_empty : Addressed empty := fun _ contact => by
  simp [contacts, empty] at contact

theorem Addressed.removed (addressed : Addressed c) (removed : Removed c d gone)
    (sub : gone ⊆ c.contacts) : Addressed d := by
  rw [Addressed, removed.contacts_eq sub, removed.cell]
  exact Index.Complete.without addressed removed.addrs sub

theorem Addressed.file (addressed : Addressed c)
    (id : ∀ x ∈ c.contacts, (c.info x).peer ≠ r.peer)
    (addr : ∀ x ∈ c.contacts, (c.info x).getAddr ≠ r.getAddr) :
    Addressed (c.file e r).2 := by
  rw [Addressed, contacts_file id, file_cell]
  exact Index.Complete.file addressed (fun contact => file_fresh contact.1) addr

theorem Addressed.replace (addressed : Addressed c) (contact : p ∈ c.contacts)
    (same : SameContact r (c.info p)) (now : Int) (e : CallEnv) :
    Addressed ((c.erase now p).file e r).2 := by
  have removed := removed_erase c now p
  have sub := Set.singleton_subset_iff.mpr contact
  have own : r.getAddr = (c.info p).getAddr := by
    rw [SPeerInfo.getAddr, SPeerInfo.getAddr, same.2.1, same.2.2]
  refine (addressed.removed removed sub).file ?_ ?_
  · rw [same.1]
    exact erased_id_free contact now
  · rw [removed.contacts_eq sub]
    rintro x ⟨hx, other⟩ equal
    exact other (addressed.injOn hx contact (equal.trans own))

theorem Addressed.add_new (addressed : Addressed c) (ok : Consistent c)
    (own : r.peer = c.lastPeerId + 1) (missing : c.findIpPort r.ip r.port = none)
    (e : CallEnv) : Addressed ((c.doCleanUp e.now).bump.file e r).2 := by
  have removed := removed_bump ok.sound e.now
  have sub := ok.victims_subset e.now
  apply (addressed.removed removed sub).file (ok.next_id_free own)
  rw [removed.contacts_eq sub]
  rintro x ⟨contact, _⟩ same
  rw [info, removed.cell] at same
  have found := addressed x contact
  rw [Index.Filed, same] at found
  rw [findIpPort, ← SPeerInfo.getAddr, found] at missing
  cases missing

/-- What one call does to the contacts: those it leaves had their id and address
before, except for one that carries an id past the counter. -/
structure Evolves (c c' : SContacts) : Prop where
  addressed : Addressed c'
  counter : c.lastPeerId ≤ c'.lastPeerId
  origin : ∀ q ∈ c'.contacts, (∃ p ∈ c.contacts, SameContact (c'.info q) (c.info p)) ∨
    c.lastPeerId < (c'.info q).peer

theorem evolves_removed (addressed : Addressed c) (removed : Removed c d gone)
    (sub : gone ⊆ c.contacts) : Evolves c d where
  addressed := addressed.removed removed sub
  counter := removed.counter
  origin q contact := by
    rw [removed.contacts_eq sub] at contact
    exact .inl ⟨q, contact.1, by rw [info, removed.cell]; exact ⟨rfl, rfl, rfl⟩⟩

theorem evolves_exec (ok : Consistent c) (addressed : Addressed c)
    (call : c.exec op = some c') : Evolves c c' := by
  rcases exec_cases ok call with ⟨gone, sub, removed⟩ | ⟨p, contact, e, r, same, rfl⟩ |
    ⟨e, r, own, missing, _, rfl⟩
  · exact evolves_removed addressed removed sub
  · have left := evolves_removed addressed (removed_erase c e.now p)
      (Set.singleton_subset_iff.mpr contact)
    refine ⟨addressed.replace contact same e.now e, left.counter, ?_⟩
    intro q hq
    rw [contacts_file (same.1 ▸ erased_id_free contact e.now)] at hq
    rcases hq with rfl | hq
    · exact .inl ⟨p, contact, by rwa [info_file_self]⟩
    · rw [info_file_of_live hq.1]
      exact left.origin q hq
  · have left := evolves_removed addressed (removed_bump ok.sound e.now)
      (ok.victims_subset e.now)
    refine ⟨addressed.add_new ok own missing e, left.counter, ?_⟩
    intro q hq
    rw [contacts_file (ok.next_id_free own)] at hq
    rcases hq with rfl | hq
    · right
      rw [info_file_self, own]
      exact Int.lt_succ _
    · rw [info_file_of_live hq.1]
      exact left.origin q hq

theorem addressed_of_run {ops : List Op} (run : Run (Det exec) empty ops c) :
    Consistent c ∧ Addressed c := by
  refine run.invariant (I := fun c => Consistent c ∧ Addressed c)
    ⟨consistent_empty, addressed_empty⟩ ?_
  rintro c op c' ⟨ok, addressed⟩ call
  exact ⟨ok.exec call, (evolves_exec ok addressed call).addressed⟩

/-- Over any further run, a contact with an old id has the old address. -/
theorem origin_of_run {ops : List Op} (ok : Consistent c) (addressed : Addressed c)
    (run : Run (Det exec) c ops d) :
    c.lastPeerId ≤ d.lastPeerId ∧ ∀ q ∈ d.contacts,
      (∃ p ∈ c.contacts, SameContact (d.info q) (c.info p)) ∨
        c.lastPeerId < (d.info q).peer := by
  have kept := run.invariant (I := fun d => (Consistent d ∧ Addressed d) ∧
    c.lastPeerId ≤ d.lastPeerId ∧ ∀ q ∈ d.contacts,
      (∃ p ∈ c.contacts, SameContact (d.info q) (c.info p)) ∨ c.lastPeerId < (d.info q).peer)
    ⟨⟨ok, addressed⟩, le_rfl, fun q hq => .inl ⟨q, hq, rfl, rfl, rfl⟩⟩ ?_
  · exact kept.2
  · rintro d op d' ⟨⟨ok, addressed⟩, counter, origin⟩ call
    have evolves := evolves_exec ok addressed call
    refine ⟨⟨ok.exec call, evolves.addressed⟩, counter.trans evolves.counter, ?_⟩
    intro q hq
    rcases evolves.origin q hq with ⟨x, hx, same⟩ | new
    · rcases origin x hx with ⟨p, hp, same'⟩ | new
      · exact .inl ⟨p, hp, same.1.trans same'.1, same.2.1.trans same'.2.1,
          same.2.2.trans same'.2.2⟩
      · exact .inr (same.1 ▸ new)
    · exact .inr (counter.trans_lt new)

/-- The call from `c` to `c'` issues `k`: a contact has it that no contact had. -/
def Issues (c c' : SContacts) (k : SBusPeer) : Prop :=
  (∃ q ∈ c'.contacts, (c'.info q).peer = k) ∧ ∀ p ∈ c.contacts, (c.info p).peer ≠ k

/-- Ids and addresses over a run, seen at two times, `c` and `d`. An id that a
call issues at the later time is positive and was no contact's id at the earlier
one. A contact that has its id at both times has one address. At any time
addresses are unique, and `find(ip, port)` returns the contact that has the
address, or nothing when none has. -/
theorem ids_and_addresses {before after : List Op}
    (first : Run (Det exec) empty before c) (more : Run (Det exec) c after d) :
    (∀ op d', d.exec op = some d' → ∀ k, Issues d d' k →
      1 ≤ k ∧ ∀ p ∈ c.contacts, (c.info p).peer ≠ k) ∧
    (∀ p ∈ c.contacts, ∀ q ∈ d.contacts, (c.info p).peer = (d.info q).peer →
      (c.info p).ip = (d.info q).ip ∧ (c.info p).port = (d.info q).port) ∧
    (∀ p ∈ d.contacts, ∀ q ∈ d.contacts, (d.info p).ip = (d.info q).ip →
      (d.info p).port = (d.info q).port → p = q) ∧
    (∀ ip port p, d.findIpPort ip port = some p ↔
      p ∈ d.contacts ∧ (d.info p).ip = ip ∧ (d.info p).port = port) := by
  obtain ⟨okc, addressedc⟩ := addressed_of_run first
  obtain ⟨okd, addressedd⟩ := addressed_of_run (first.append more)
  obtain ⟨counter, origin⟩ := origin_of_run okc addressedc more
  have known : ∀ p ∈ c.contacts, (c.info p).peer ≤ c.lastPeerId :=
    fun p hp => (okc.ids _ p hp.2).2
  refine ⟨?_, ?_, ?_, ?_⟩
  · rintro op d' call k ⟨⟨q, hq, rfl⟩, unused⟩
    refine ⟨((okd.exec call).ids _ q hq.2).1, ?_⟩
    intro p hp same
    rcases (evolves_exec okd addressedd call).origin q hq with ⟨x, hx, old⟩ | new
    · exact unused x hx old.1.symm
    · have old : (d'.info q).peer ≤ c.lastPeerId := same ▸ known p hp
      exact absurd (counter.trans_lt new) old.not_gt
  · intro p hp q hq same
    rcases origin q hq with ⟨x, hx, old⟩ | new
    · obtain rfl := peer_injOn hp hx (same.trans old.1)
      exact ⟨old.2.1.symm, old.2.2.symm⟩
    · have old : (d.info q).peer ≤ c.lastPeerId := same ▸ known p hp
      exact absurd new old.not_gt
  · intro p hp q hq ip port
    exact addressedd.injOn hp hq (ipnport2addr_inj.mpr ⟨ip, port⟩)
  · intro ip port p
    rw [findIpPort, addressedd.lookup_eq_some_iff okd.sound.addrs, SPeerInfo.getAddr,
      ipnport2addr_inj]

/-- A contact is renamed into the memory its old record leaves, and another one
is evicted. -/
theorem ids_and_addresses_renamed_and_evicted :
    ∃ c d, Run (Det exec) empty [.add ⟨10, 0, []⟩ 5 1 1 [97], .add ⟨11, 1, []⟩ (-1) 2 1 [98]] c ∧
      Run (Det exec) c [.updateName ⟨12, 0, []⟩ 0 [98], .doCleanUp 7211] d ∧
      (∀ p ∈ c.contacts, ∀ q ∈ d.contacts, (c.info p).peer = (d.info q).peer →
        (c.info p).ip = (d.info q).ip ∧ (c.info p).port = (d.info q).port) ∧
      ∀ ip port p, d.findIpPort ip port = some p ↔
        p ∈ d.contacts ∧ (d.info p).ip = ip ∧ (d.info p).port = port := by
  obtain ⟨c, d, first, more⟩ : ∃ c d,
      Run (Det exec) empty [.add ⟨10, 0, []⟩ 5 1 1 [97], .add ⟨11, 1, []⟩ (-1) 2 1 [98]] c ∧
        Run (Det exec) c [.updateName ⟨12, 0, []⟩ 0 [98], .doCleanUp 7211] d :=
    ⟨_, _, run_det_iff.mpr rfl, run_det_iff.mpr rfl⟩
  obtain ⟨_, kept, _, found⟩ := ids_and_addresses first more
  exact ⟨c, d, first, more, kept, found⟩

end LibSBus.SContacts
