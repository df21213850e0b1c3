import LibSBus.SContacts

/-!
The four maps of the table never lead astray: an entry leads to a live contact
that carries the entry's key. Every operation removes some records and may then
file a new one, so it is enough to say what removing does (`Removed`) and what
filing does. Keys may be shared: both are said for any set of records the
entries are known to stay in.
-/

namespace LibSBus.SContacts

open Lib

variable {c c' d : SContacts} {valid gone gone' : Set Ptr} {e : CallEnv} {now : Int}
  {p q x : Ptr} {r : SPeerInfo} {it : Sigma fun _ : SBusPeer => Ptr}

private theorem foldl_touch_cell (l : List (Sigma fun _ : SBusPeer => Ptr)) (h : Heap) :
    (l.foldl (fun h it => h.touch now it.2) h).cell = h.cell := by
  induction l generalizing h with
  | nil => rfl
  | cons it l ih => exact ih (h.touch now it.2)

private theorem foldl_touch_live (l : List (Sigma fun _ : SBusPeer => Ptr)) (h : Heap) :
    (l.foldl (fun h it => h.touch now it.2) h).live = h.live := by
  induction l generalizing h with
  | nil => rfl
  | cons it l ih => exact ih (h.touch now it.2)

@[simp] theorem file_cell :
    (c.file e r).2.heap.cell = Function.update c.heap.cell (c.file e r).1 r :=
  foldl_touch_cell _ _

@[simp] theorem file_live : (c.file e r).2.heap.live = insert (c.file e r).1 c.heap.live :=
  foldl_touch_live _ _

theorem file_fresh : (c.file e r).1 ∉ c.heap.live := c.heap.place_not_mem e.addr

theorem info_file_self : (c.file e r).2.info (c.file e r).1 = r := by
  rw [info, file_cell, Function.update_self]

/-- Filing a record writes to no live address. -/
theorem info_file_of_live (live : x ∈ c.heap.live) : (c.file e r).2.info x = c.info x := by
  rw [info, file_cell, Function.update_of_ne]
  rintro rfl
  exact file_fresh live

theorem info_file_keeps_at {P : SPeerInfo → Prop} (old : P (c.info x)) (new : P r) :
    P ((c.file e r).2.info x) := by
  rw [info, file_cell, Function.update_apply]
  split
  case isTrue here => exact new
  case isFalse there => exact old

/-- What every record shows, and the record that is filed, every record shows then. -/
theorem info_file_keeps {P : SPeerInfo → Prop} (all : ∀ x, P (c.info x)) (new : P r) (x : Ptr) :
    P ((c.file e r).2.info x) :=
  info_file_keeps_at (all x) new

/-- The pointer that was replaced still shows the id. -/
theorem updateSocket_peer (e : CallEnv) (p : Ptr) (socket : SocketType) :
    ((c.updateSocket e p socket).2.info p).peer = (c.info p).peer := by
  rw [SContacts.updateSocket, info, file_cell, Function.update_apply]
  split <;> rfl

theorem findPeer_file : (c.file e r).2.findPeer r.peer = some (c.file e r).1 :=
  AList.lookup_insert _

/-- Every entry leads into `valid`, to a record that carries the entry's key. -/
structure IndexesSound (c : SContacts) (valid : Set Ptr) : Prop where
  peers : Index.Sound SPeerInfo.peer c.heap.cell valid c.peers
  addrs : Index.Sound SPeerInfo.getAddr c.heap.cell valid c.addr2peer
  names : Index.Sound SPeerInfo.name c.heap.cell valid c.name2peer
  sockets : Index.Sound SPeerInfo.socket c.heap.cell valid c.socket2peer

theorem indexesSound_empty : IndexesSound empty valid :=
  ⟨Index.sound_empty, Index.sound_empty, Index.sound_empty, Index.sound_empty⟩

theorem IndexesSound.mono {valid' : Set Ptr} (sound : IndexesSound c valid)
    (sub : valid ⊆ valid') : IndexesSound c valid' :=
  ⟨sound.peers.mono sub, sound.addrs.mono sub, sound.names.mono sub, sound.sockets.mono sub⟩

theorem IndexesSound.file (sound : IndexesSound c valid) (fresh : (c.file e r).1 ∉ valid) :
    IndexesSound (c.file e r).2 (insert (c.file e r).1 valid) := by
  refine ⟨?_, ?_, ?_, ?_⟩ <;> rw [file_cell]
  · exact sound.peers.file fresh r
  · exact sound.addrs.file fresh r
  · exact sound.names.file fresh r
  · exact sound.sockets.file fresh r

/-- From `c` to `d` the entries of the records in `gone` were erased, and nothing
is changed about the other records. The counter may have grown. -/
structure Removed (c d : SContacts) (gone : Set Ptr) : Prop where
  counter : c.lastPeerId ≤ d.lastPeerId
  cell : d.heap.cell = c.heap.cell
  live : ∀ x ∉ gone, x ∈ d.heap.live ↔ x ∈ c.heap.live
  peers : Index.Without SPeerInfo.peer c.heap.cell gone c.peers d.peers
  addrs : Index.Without SPeerInfo.getAddr c.heap.cell gone c.addr2peer d.addr2peer
  names : Index.Without SPeerInfo.name c.heap.cell gone c.name2peer d.name2peer
  sockets : Index.Without SPeerInfo.socket c.heap.cell gone c.socket2peer d.socket2peer

theorem removed_nothing (counter : c.lastPeerId ≤ d.lastPeerId) (cell : d.heap.cell = c.heap.cell)
    (live : d.heap.live = c.heap.live) (peers : d.peers = c.peers)
    (addrs : d.addr2peer = c.addr2peer) (names : d.name2peer = c.name2peer)
    (sockets : d.socket2peer = c.socket2peer) :
    Removed c d ∅ := by
  refine ⟨counter, cell, fun _ _ => by rw [live], ?_, ?_, ?_, ?_⟩
  · rw [peers]
    exact Index.without_nothing
  · rw [addrs]
    exact Index.without_nothing
  · rw [names]
    exact Index.without_nothing
  · rw [sockets]
    exact Index.without_nothing

theorem Removed.trans (first : Removed c c' gone) (second : Removed c' d gone') :
    Removed c d (gone ∪ gone') := by
  obtain ⟨counter, cell, live, peers, addrs, names, sockets⟩ := second
  rw [first.cell] at peers addrs names sockets
  refine ⟨first.counter.trans counter, cell.trans first.cell, ?_, first.peers.trans peers,
    first.addrs.trans addrs, first.names.trans names, first.sockets.trans sockets⟩
  intro x left
  rw [Set.mem_union, not_or] at left
  rw [live x left.2, first.live x left.1]

theorem IndexesSound.removed (sound : IndexesSound c valid) (removed : Removed c d gone) :
    IndexesSound d (valid \ gone) := by
  refine ⟨?_, ?_, ?_, ?_⟩ <;> rw [removed.cell]
  · exact sound.peers.without removed.peers
  · exact sound.addrs.without removed.addrs
  · exact sound.names.without removed.names
  · exact sound.sockets.without removed.sockets

theorem removed_erase (c : SContacts) (now : Int) (p : Ptr) : Removed c (c.erase now p) {p} where
  counter := le_rfl
  cell := rfl
  live _ other := ⟨Finset.mem_of_mem_erase, fun live => Finset.mem_erase.mpr ⟨other, live⟩⟩
  peers := Index.without_erase c.peers p
  addrs := Index.without_erase c.addr2peer p
  names := Index.without_erase c.name2peer p
  sockets := Index.without_erase c.socket2peer p

/-- The test of the sweep. -/
def Idle (c : SContacts) (now : Int) (p : Ptr) : Prop :=
  now - c.heap.lastActivity p > maxAllowedPeerinfoIdleS

theorem removed_evict (own : (c.info it.2).peer = it.1) (idle : c.Idle now it.2) :
    Removed c (evict now c it) {it.2} := by
  have step : evict now c it = { c.erase now it.2 with heap := c.heap.touch now it.2 } := by
    rw [evict, if_pos (show now - c.heap.lastActivity it.2 > maxAllowedPeerinfoIdleS from idle),
      ← own]
    rfl
  obtain ⟨counter, cell, _, peers, addrs, names, sockets⟩ := removed_erase c now it.2
  rw [step]
  exact ⟨counter, cell, fun _ _ => Iff.rfl, peers, addrs, names, sockets⟩

theorem evict_lastActivity (other : x ≠ it.2) :
    (evict now c it).heap.lastActivity x = c.heap.lastActivity x := by
  unfold evict
  split
  case isTrue idle => exact Function.update_of_ne other _ _
  case isFalse busy => rfl

theorem idle_evict_iff (other : x ≠ it.2) : (evict now c it).Idle now x ↔ c.Idle now x := by
  rw [Idle, evict_lastActivity other, Idle]

/-- Entries with different ids lead to different records, as each record has the id it
is entered under. -/
theorem visited_apart {l : List (Sigma fun _ : SBusPeer => Ptr)} (nodup : (it :: l).NodupKeys)
    (own : ∀ other ∈ it :: l, (c.info other.2).peer = other.1) :
    ∀ other ∈ l, other.2 ≠ it.2 := by
  intro other mem same
  have id := own other (List.mem_cons_of_mem it mem)
  rw [same, own it List.mem_cons_self] at id
  exact (List.nodupKeys_cons.mp nodup).1 (id ▸ List.mem_keys_of_mem mem)

/-- The loop of the sweep removes the idle ones among the records it visits. The
records are different, so that no visit stamps a record visited later. -/
private theorem removed_visits (now : Int) (l : List (Sigma fun _ : SBusPeer => Ptr))
    (c : SContacts) (nodup : l.NodupKeys) (own : ∀ it ∈ l, (c.info it.2).peer = it.1) :
    Removed c (l.foldl (evict now) c) {p | (∃ it ∈ l, it.2 = p) ∧ c.Idle now p} := by
  induction l generalizing c with
  | nil =>
      have nobody : {p | (∃ it ∈ ([] : List (Sigma fun _ : SBusPeer => Ptr)), it.2 = p) ∧
          c.Idle now p} = ∅ := by
        ext p
        simp
      rw [nobody]
      exact removed_nothing le_rfl rfl rfl rfl rfl rfl rfl
  | cons it l ih =>
      have apart := visited_apart nodup own
      have nodup := (List.nodupKeys_cons.mp nodup).2
      have here := own it List.mem_cons_self
      have later : ∀ other ∈ l, (c.info other.2).peer = other.1 :=
        fun other mem => own other (List.mem_cons_of_mem it mem)
      by_cases idle : c.Idle now it.2
      · have first := removed_evict here idle
        have rest := ih (evict now c it) nodup fun other mem => by
          rw [info, first.cell]
          exact later other mem
        have same : {p | (∃ other ∈ it :: l, other.2 = p) ∧ c.Idle now p} =
            {it.2} ∪ {p | (∃ other ∈ l, other.2 = p) ∧ (evict now c it).Idle now p} := by
          ext p
          constructor
          · rintro ⟨⟨other, mem, rfl⟩, old⟩
            rcases List.mem_cons.mp mem with rfl | mem
            · exact .inl rfl
            · exact .inr ⟨⟨other, mem, rfl⟩, (idle_evict_iff (apart other mem)).mpr old⟩
          · rintro (rfl | ⟨⟨other, mem, rfl⟩, old⟩)
            · exact ⟨⟨it, List.mem_cons_self, rfl⟩, idle⟩
            · exact ⟨⟨other, List.mem_cons_of_mem it mem, rfl⟩,
                (idle_evict_iff (apart other mem)).mp old⟩
        rw [same]
        exact first.trans rest
      · have rest := ih c nodup later
        have same : {p | (∃ other ∈ it :: l, other.2 = p) ∧ c.Idle now p} =
            {p | (∃ other ∈ l, other.2 = p) ∧ c.Idle now p} := by
          ext p
          constructor
          · rintro ⟨⟨other, mem, rfl⟩, old⟩
            rcases List.mem_cons.mp mem with rfl | mem
            · exact absurd old idle
            · exact ⟨⟨other, mem, rfl⟩, old⟩
          · rintro ⟨⟨other, mem, rfl⟩, old⟩
            exact ⟨⟨other, List.mem_cons_of_mem it mem, rfl⟩, old⟩
        rw [same, List.foldl_cons, show evict now c it = c from if_neg idle]
        exact rest

/-- What a clean-up removes: nothing when the last one was recent, otherwise the
idle records of `peers`. -/
def victims (c : SContacts) (now : Int) : Set Ptr :=
  {p | now - c.lastCleanUp > minCleanupPeriodS ∧ (∃ k, c.peers.lookup k = some p) ∧
    c.Idle now p}

/-- The records the loop of a sweep that is due finds idle. -/
theorem victims_of_due (due : now - c.lastCleanUp > minCleanupPeriodS) :
    c.victims now = {p | (∃ it ∈ c.peers.entries, it.2 = p) ∧ c.Idle now p} := by
  ext p
  constructor
  · rintro ⟨_, ⟨k, entry⟩, idle⟩
    exact ⟨⟨⟨k, p⟩, AList.mem_lookup_iff.mp entry, rfl⟩, idle⟩
  · rintro ⟨⟨it, mem, rfl⟩, idle⟩
    exact ⟨due, ⟨it.1, AList.mem_lookup_iff.mpr mem⟩, idle⟩

theorem victims_of_early (early : ¬ now - c.lastCleanUp > minCleanupPeriodS) :
    c.victims now = ∅ := by
  ext p
  simp [victims, early]

/-- Each record has the id it is entered under. -/
theorem IndexesSound.entry_peer (sound : IndexesSound c valid) :
    ∀ it ∈ c.peers.entries, (c.info it.2).peer = it.1 := fun _ mem =>
  (sound.peers _ _ (AList.mem_lookup_iff.mpr mem)).2

theorem removed_doCleanUp (sound : IndexesSound c valid) (now : Int) :
    Removed c (c.doCleanUp now) (c.victims now) := by
  unfold doCleanUp
  split
  case isTrue due =>
    obtain ⟨counter, cell, live, peers, addrs, names, sockets⟩ := removed_visits now
      c.peers.entries { c with lastCleanUp := now } c.peers.nodupKeys sound.entry_peer
    rw [victims_of_due due]
    exact ⟨counter, cell, live, peers, addrs, names, sockets⟩
  case isFalse early =>
    rw [victims_of_early early]
    exact removed_nothing le_rfl rfl rfl rfl rfl rfl rfl

/-- Live contacts have different ids. -/
theorem peer_injOn (hp : p ∈ c.contacts) (hq : q ∈ c.contacts)
    (same : (c.info p).peer = (c.info q).peer) : p = q :=
  Index.Filed.unique hp.2 hq.2 same

/-- Removing contacts leaves the others. -/
theorem Removed.contacts_eq (removed : Removed c d gone) (sub : gone ⊆ c.contacts) :
    d.contacts = c.contacts \ gone := by
  ext x
  have filed : Index.Filed SPeerInfo.peer d.heap.cell d.peers x ↔
      Index.Filed SPeerInfo.peer c.heap.cell c.peers x ∧
        ∀ y ∈ gone, (c.info y).peer ≠ (c.info x).peer := by
    rw [removed.cell]
    exact removed.peers.filed_iff
  constructor
  · rintro ⟨alive, own⟩
    obtain ⟨old, kept⟩ := filed.mp own
    have left : x ∉ gone := fun hx => kept x hx rfl
    exact ⟨⟨(removed.live x left).mp alive, old⟩, left⟩
  · rintro ⟨contact, left⟩
    refine ⟨(removed.live x left).mpr contact.1, filed.mpr ⟨contact.2, ?_⟩⟩
    intro y hy same
    exact left (peer_injOn (sub hy) contact same ▸ hy)

/-- Filing a record under an id no contact has adds one contact. -/
theorem contacts_file (new : ∀ x ∈ c.contacts, (c.info x).peer ≠ r.peer) :
    (c.file e r).2.contacts = insert (c.file e r).1 c.contacts := by
  have fresh := file_fresh (c := c) (e := e) (r := r)
  ext x
  rw [contacts, Set.mem_ofPred_eq, file_live, file_cell, Finset.mem_insert, Set.mem_insert_iff]
  by_cases same : x = (c.file e r).1
  · subst same
    exact iff_of_true ⟨.inl rfl, Index.filed_file⟩ (.inl rfl)
  · have filed : Index.Filed SPeerInfo.peer (Function.update c.heap.cell (c.file e r).1 r)
          (c.file e r).2.peers x ↔
        (c.info x).peer ≠ r.peer ∧ Index.Filed SPeerInfo.peer c.heap.cell c.peers x :=
      Index.filed_file_iff same
    constructor
    · rintro ⟨alive | alive, own⟩
      · exact absurd alive same
      · exact .inr ⟨alive, (filed.mp own).2⟩
    · rintro (here | contact)
      · exact absurd here same
      · exact ⟨.inr contact.1, filed.mpr ⟨new x contact, contact.2⟩⟩

/-- The invariant of the table: the maps lead to live contacts, and ids are the
numbers from one to `lastPeerId`. -/
structure Consistent (c : SContacts) : Prop where
  sound : IndexesSound c c.contacts
  counted : 0 ≤ c.lastPeerId
  ids : ∀ (k : Int) (p : Ptr), c.peers.lookup k = some p → 1 ≤ k ∧ k ≤ c.lastPeerId

theorem consistent_empty : Consistent empty where
  sound := indexesSound_empty
  counted := Int.le_refl 0
  ids k p entry := by simp [empty] at entry

theorem Consistent.touch (ok : Consistent c) (now : Int) (p : Ptr) : Consistent (c.touch now p) :=
  ⟨⟨ok.sound.peers, ok.sound.addrs, ok.sound.names, ok.sound.sockets⟩, ok.counted, ok.ids⟩

theorem Consistent.removed (ok : Consistent c) (removed : Removed c d gone)
    (sub : gone ⊆ c.contacts) : Consistent d := by
  refine ⟨?_, ?_, ?_⟩
  · rw [removed.contacts_eq sub]
    exact ok.sound.removed removed
  · exact ok.counted.trans removed.counter
  · intro k p entry
    obtain ⟨positive, bounded⟩ := ok.ids k p ((removed.peers k p).mp entry).1
    exact ⟨positive, bounded.trans removed.counter⟩

theorem Consistent.file (ok : Consistent c) (new : ∀ x ∈ c.contacts, (c.info x).peer ≠ r.peer)
    (positive : (1 : Int) ≤ r.peer) (bounded : (r.peer : Int) ≤ c.lastPeerId) (e : CallEnv) :
    Consistent (c.file e r).2 := by
  refine ⟨?_, ok.counted, ?_⟩
  · rw [contacts_file new]
    exact ok.sound.file fun contact => file_fresh contact.1
  · intro k x entry
    rcases Index.lookup_insert_eq_some.mp entry with ⟨rfl, rfl⟩ | ⟨_, old⟩
    · exact ⟨positive, bounded⟩
    · exact ok.ids k x old

theorem Consistent.victims_subset (ok : Consistent c) (now : Int) :
    c.victims now ⊆ c.contacts := by
  rintro p ⟨_, ⟨k, entry⟩, _⟩
  exact (ok.sound.peers k p entry).1

theorem Consistent.doCleanUp (ok : Consistent c) (now : Int) : Consistent (c.doCleanUp now) :=
  ok.removed (removed_doCleanUp ok.sound now) (ok.victims_subset now)

/-- After a contact is erased its id is free. -/
theorem erased_id_free (contact : p ∈ c.contacts) (now : Int) :
    ∀ x ∈ (c.erase now p).contacts, ((c.erase now p).info x).peer ≠ (c.info p).peer := by
  rw [(removed_erase c now p).contacts_eq (Set.singleton_subset_iff.mpr contact)]
  rintro x ⟨hx, other⟩ same
  exact other (peer_injOn hx contact same)

/-- Both updates: the contact is erased and a new record filed under its id. -/
theorem Consistent.replace (ok : Consistent c) (contact : p ∈ c.contacts)
    (own : r.peer = (c.info p).peer) (now : Int) (e : CallEnv) :
    Consistent ((c.erase now p).file e r).2 := by
  have bounds := ok.ids _ p contact.2
  have erased := ok.removed (removed_erase c now p) (Set.singleton_subset_iff.mpr contact)
  refine erased.file ?_ ?_ ?_ e
  · rw [own]
    exact erased_id_free contact now
  · rw [own]
    exact bounds.1
  · rw [own]
    exact bounds.2

/-- An update replaces the contact by the new record and keeps the others. -/
theorem contacts_replace (contact : p ∈ c.contacts) (own : r.peer = (c.info p).peer) :
    ((c.erase now p).file e r).2.contacts =
      insert ((c.erase now p).file e r).1 (c.contacts \ {p}) := by
  rw [contacts_file (own ▸ erased_id_free contact now),
    (removed_erase c now p).contacts_eq (Set.singleton_subset_iff.mpr contact)]

/-- The new record is a contact. -/
theorem replaced_contact (contact : p ∈ c.contacts) (own : r.peer = (c.info p).peer) :
    ((c.erase now p).file e r).1 ∈ ((c.erase now p).file e r).2.contacts := by
  rw [contacts_replace contact own]
  exact Set.mem_insert _ _

theorem Consistent.updateSocket (ok : Consistent c) (contact : p ∈ c.contacts) (e : CallEnv)
    (socket : SocketType) : Consistent (c.updateSocket e p socket).2 :=
  ok.replace (r := { c.info p with socket := socket, name := e.stale }) contact rfl e.now e

theorem Consistent.updateName (ok : Consistent c) (contact : p ∈ c.contacts) (e : CallEnv)
    (name : CString) : Consistent (c.updateName e p name).2 :=
  ok.replace (r := { c.info p with name := name }) contact rfl e.now e

theorem updateSocket_contact (contact : p ∈ c.contacts) (e : CallEnv) (socket : SocketType) :
    (c.updateSocket e p socket).1 ∈ (c.updateSocket e p socket).2.contacts :=
  replaced_contact (r := { c.info p with socket := socket, name := e.stale }) contact rfl

theorem updateName_contact (contact : p ∈ c.contacts) (e : CallEnv) (name : CString) :
    (c.updateName e p name).1 ∈ (c.updateName e p name).2.contacts :=
  replaced_contact (r := { c.info p with name := name }) contact rfl

/-- The next id. -/
def bump (c : SContacts) : SContacts := { c with lastPeerId := c.lastPeerId + 1 }

private theorem foldl_evict_lastPeerId (l : List (Sigma fun _ : SBusPeer => Ptr))
    (c : SContacts) : (l.foldl (evict now) c).lastPeerId = c.lastPeerId := by
  induction l generalizing c with
  | nil => rfl
  | cons it l ih =>
      rw [List.foldl_cons, ih]
      unfold evict
      split <;> rfl

theorem doCleanUp_lastPeerId : (c.doCleanUp now).lastPeerId = c.lastPeerId := by
  unfold doCleanUp
  split
  case isTrue due => exact foldl_evict_lastPeerId _ _
  case isFalse early => rfl

theorem bump_lastPeerId : (c.doCleanUp now).bump.lastPeerId = c.lastPeerId + 1 := by
  rw [bump, doCleanUp_lastPeerId]

/-- What `add` does: nothing for a known address or a known name; otherwise it
cleans up and files a new record under the next id. -/
theorem add_eq_some {socket : SocketType} {ip : IP} {port : Port} {name : CString}
    (call : c.add e socket ip port name = some (q, c')) :
    (c' = c ∧ c.findIpPort ip port = some q) ∨
    (c' = c ∧ c.findIpPort ip port = none ∧ c.findName name = some q) ∨
    (c.findIpPort ip port = none ∧ c.findName name = none ∧
      c.lastPeerId ≠ intMax ∧
      (q, c') = (c.doCleanUp e.now).bump.file e
        { peer := (c.doCleanUp e.now).bump.lastPeerId, ip, port, socket, name }) := by
  unfold add at call
  split at call
  case h_1 peerInfo found =>
    obtain ⟨rfl, rfl⟩ := Prod.mk.inj (Option.some.inj call)
    exact .inl ⟨rfl, found⟩
  case h_2 missing =>
    split at call
    case h_1 peerInfo found =>
      obtain ⟨rfl, rfl⟩ := Prod.mk.inj (Option.some.inj call)
      exact .inr (.inl ⟨rfl, missing, found⟩)
    case h_2 unnamed =>
      dsimp only at call
      split at call
      case isTrue last => cases call
      case isFalse more =>
        rw [doCleanUp_lastPeerId] at more
        exact .inr (.inr ⟨missing, unnamed, more, (Option.some.inj call).symm⟩)

theorem add_of_new {socket : SocketType} {ip : IP} {port : Port} {name : CString}
    (missing : c.findIpPort ip port = none) (unnamed : c.findName name = none)
    (more : c.lastPeerId ≠ intMax) :
    c.add e socket ip port name = some ((c.doCleanUp e.now).bump.file e
      { peer := (c.doCleanUp e.now).bump.lastPeerId, ip, port, socket, name }) := by
  unfold add
  rw [missing, unnamed]
  exact if_neg (by rwa [doCleanUp_lastPeerId])

/-- What `add` has done to the table when it creates the new record. -/
theorem removed_bump (sound : IndexesSound c valid) (now : Int) :
    Removed c (c.doCleanUp now).bump (c.victims now) := by
  obtain ⟨_, cell, live, peers, addrs, names, sockets⟩ := removed_doCleanUp sound now
  refine ⟨?_, cell, live, peers, addrs, names, sockets⟩
  rw [bump_lastPeerId]
  exact Int.le_of_lt (Int.lt_succ _)

/-- No contact has the next id. -/
theorem Consistent.next_id_free (ok : Consistent c) (own : r.peer = c.lastPeerId + 1) :
    ∀ x ∈ (c.doCleanUp now).bump.contacts, ((c.doCleanUp now).bump.info x).peer ≠ r.peer := by
  have removed := removed_bump ok.sound now
  rw [removed.contacts_eq (ok.victims_subset now)]
  rintro x ⟨contact, _⟩ same
  rw [info, removed.cell, own] at same
  have bound : (c.info x).peer ≤ c.lastPeerId := (ok.ids _ x contact.2).2
  rw [info, same] at bound
  exact absurd bound (Int.not_le.mpr (Int.lt_succ _))

theorem Consistent.add_new (ok : Consistent c) (own : r.peer = c.lastPeerId + 1)
    (e : CallEnv) : Consistent ((c.doCleanUp e.now).bump.file e r).2 := by
  have counted := ok.counted
  have cleaned := ok.removed (removed_bump ok.sound e.now) (ok.victims_subset e.now)
  refine cleaned.file (ok.next_id_free own) ?_ ?_ e
  · rw [own]
    omega
  · rw [own, bump_lastPeerId]

/-- Same id, same address. -/
def SameContact (r r' : SPeerInfo) : Prop := r.peer = r'.peer ∧ r.ip = r'.ip ∧ r.port = r'.port

/-- What a call can do to the table: remove contacts, replace one contact by a
record with its id and address, or clean up and file a record with the next id
whose address and name no entry has. -/
theorem exec_cases {op : Op} (ok : Consistent c) (call : c.exec op = some c') :
    (∃ gone ⊆ c.contacts, Removed c c' gone) ∨
    (∃ p ∈ c.contacts, ∃ e r, SameContact r (c.info p) ∧
      c' = ((c.erase e.now p).file e r).2) ∨
    (∃ e r, r.peer = c.lastPeerId + 1 ∧ c.findIpPort r.ip r.port = none ∧
      c.findName r.name = none ∧ c' = ((c.doCleanUp e.now).bump.file e r).2) := by
  have unchanged : Removed c c ∅ := removed_nothing le_rfl rfl rfl rfl rfl rfl rfl
  cases op with
  | add e socket ip port name =>
      obtain ⟨⟨q, t⟩, added, rfl⟩ := Option.map_eq_some_iff.mp call
      rcases add_eq_some added with ⟨rfl, _⟩ | ⟨rfl, _⟩ | ⟨missing, unnamed, _, filed⟩
      · exact .inl ⟨∅, Set.empty_subset _, unchanged⟩
      · exact .inl ⟨∅, Set.empty_subset _, unchanged⟩
      · exact .inr (.inr ⟨e,
          { peer := (c.doCleanUp e.now).bump.lastPeerId, ip, port, socket, name },
          bump_lastPeerId, missing, unnamed, congrArg Prod.snd filed⟩)
  | updateSocket e p socket =>
      obtain ⟨contact, call⟩ := Option.ite_none_right_eq_some.mp call
      exact .inr (.inl ⟨p, contact, e, { c.info p with socket := socket, name := e.stale },
        ⟨rfl, rfl, rfl⟩, (Option.some.inj call).symm⟩)
  | updateName e p name =>
      obtain ⟨contact, call⟩ := Option.ite_none_right_eq_some.mp call
      exact .inr (.inl ⟨p, contact, e, { c.info p with name := name }, ⟨rfl, rfl, rfl⟩,
        (Option.some.inj call).symm⟩)
  | doCleanUp now =>
      obtain rfl := Option.some.inj call
      exact .inl ⟨_, ok.victims_subset now, removed_doCleanUp ok.sound now⟩
  | getter now p =>
      obtain rfl := Option.some.inj call
      exact .inl ⟨∅, Set.empty_subset _, removed_nothing le_rfl rfl rfl rfl rfl rfl rfl⟩

theorem Consistent.exec {op : Op} (ok : Consistent c) (call : c.exec op = some c') :
    Consistent c' := by
  rcases exec_cases ok call with ⟨gone, sub, removed⟩ | ⟨p, contact, e, r, same, rfl⟩ |
    ⟨e, r, own, _, _, rfl⟩
  · exact ok.removed removed sub
  · exact ok.replace contact same.1 e.now e
  · exact ok.add_new own e

theorem consistent_of_run {ops : List Op} (run : Run (Det exec) empty ops c) : Consistent c :=
  run.invariant consistent_empty fun _ _ _ ok call => ok.exec call

/-- In every table a run reaches, each entry of the three secondary maps leads
to a live contact with that address, name or socket. -/
theorem entries_lead_to_contacts {ops : List Op} (run : Run (Det exec) empty ops c) :
    (∀ addr p, c.addr2peer.lookup addr = some p →
      p ∈ c.contacts ∧ (c.info p).getAddr = addr) ∧
    (∀ name p, c.name2peer.lookup name = some p → p ∈ c.contacts ∧ (c.info p).name = name) ∧
    (∀ socket p, c.socket2peer.lookup socket = some p →
      p ∈ c.contacts ∧ (c.info p).socket = socket) := by
  have sound := (consistent_of_run run).sound
  exact ⟨sound.addrs, sound.names, sound.sockets⟩

/-- Two contacts come to share a name and the socket -1, and one of them is
reconnected. -/
theorem entries_lead_to_contacts_shared_keys :
    ∃ c, Run (Det exec) empty
      [.add ⟨10, 0, []⟩ 5 1 1 [97], .add ⟨11, 1, []⟩ (-1) 2 1 [98],
       .updateName ⟨12, 1, []⟩ 1 [97], .updateSocket ⟨13, 7, [97]⟩ 0 (-1), .doCleanUp 9000] c ∧
      (∀ addr p, c.addr2peer.lookup addr = some p →
        p ∈ c.contacts ∧ (c.info p).getAddr = addr) ∧
      (∀ name p, c.name2peer.lookup name = some p → p ∈ c.contacts ∧ (c.info p).name = name) ∧
      (∀ socket p, c.socket2peer.lookup socket = some p →
        p ∈ c.contacts ∧ (c.info p).socket = socket) := by
  have run := run_det_iff.mpr
    (rfl : [Op.add ⟨10, 0, []⟩ 5 1 1 [97], .add ⟨11, 1, []⟩ (-1) 2 1 [98],
       .updateName ⟨12, 1, []⟩ 1 [97], .updateSocket ⟨13, 7, [97]⟩ 0 (-1),
       .doCleanUp 9000].foldlM exec empty = some _)
  exact ⟨_, run, entries_lead_to_contacts run⟩

end LibSBus.SContacts
