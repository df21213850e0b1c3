import Mathlib.Data.Set.Pairwise.List
import LibSBus.SContacts.Names

/-!
The lookups that come before an erasure. `erase` and the sweep hand what `find`
returns to `erase(iterator)` without a look at it, so a key that is no longer in its
map is an iterator past the end. Ids and addresses are a contact's own. A name, and
the socket -1 of all that are not connected, can belong to several contacts, and the
first of them to go takes the entry along.
-/

namespace LibSBus.SContacts

open Lib

variable {c : SContacts} {now : Int} {p : Ptr} {op : Op}
  {it : Sigma fun _ : SBusPeer => Ptr} {d : SContacts} {gone : Set Ptr} {e : CallEnv}
  {r : SPeerInfo}

/-- The four `find` of `erase`: whether each finds its key. -/
def eraseLookups (c : SContacts) (p : Ptr) : List Bool :=
  [(c.peers.lookup (c.info p).peer).isSome, (c.addr2peer.lookup (c.info p).getAddr).isSome,
    (c.name2peer.lookup (c.info p).name).isSome, (c.socket2peer.lookup (c.info p).socket).isSome]

/-- The three `find` in the loop of `doCleanUp`, which erases from `peers` by its own
iterator. -/
def evictLookups (now : Int) (c : SContacts) (it : Sigma fun _ : SBusPeer => Ptr) : List Bool :=
  if now - c.heap.lastActivity it.2 > maxAllowedPeerinfoIdleS then
    [(c.addr2peer.lookup (c.info it.2).getAddr).isSome,
      (c.name2peer.lookup (c.info it.2).name).isSome,
      (c.socket2peer.lookup (c.info it.2).socket).isSome]
  else []

/-- Those of the whole loop, each in the table the entries before have left. -/
def sweepLookups (now : Int) : List (Sigma fun _ : SBusPeer => Ptr) → SContacts → List Bool
  | [], _ => []
  | it :: rest, c => c.evictLookups now it ++ sweepLookups now rest (evict now c it)

def cleanUpLookups (c : SContacts) (now : Int) : List Bool :=
  if now - c.lastCleanUp > minCleanupPeriodS then
    sweepLookups now c.peers.entries { c with lastCleanUp := now }
  else []

/-- The lookups of a call. `add` comes to the sweep when it knows neither the address
nor the name. -/
def lookups (c : SContacts) : Op → List Bool
  | .add e _ ip port name =>
      if c.findIpPort ip port = none ∧ c.findName name = none then c.cleanUpLookups e.now else []
  | .updateSocket _ p _ => if p ∈ c.contacts then c.eraseLookups p else []
  | .updateName _ p _ => if p ∈ c.contacts then c.eraseLookups p else []
  | .doCleanUp now => c.cleanUpLookups now
  | .getter _ _ => []

/-- Every key the call looks up for removal is there. -/
def FindsKeys (c : SContacts) (op : Op) : Prop := ∀ found ∈ c.lookups op, found = true

instance (c : SContacts) (op : Op) : Decidable (c.FindsKeys op) :=
  inferInstanceAs (Decidable (∀ found ∈ _, _))

/-- Two contacts that are not connected share the socket -1. Connecting the first erases
the entry, and connecting the second looks for it. -/
theorem socket_looked_up_twice : ¬ ∀ ops, EachStep (Det exec) FindsKeys empty ops := by
  intro always
  obtain ⟨c, run, missing⟩ : ∃ c, Run (Det exec) empty
      [.add ⟨10, 0, []⟩ (-1) 1 1 [97], .add ⟨11, 1, []⟩ (-1) 2 1 [98],
       .updateSocket ⟨12, 2, [97]⟩ 0 5] c ∧
      ¬ c.FindsKeys (.updateSocket ⟨13, 3, [98]⟩ 1 6) :=
    ⟨_, run_det_iff.mpr rfl, by decide +kernel⟩
  have every := always ([Op.add ⟨10, 0, []⟩ (-1) 1 1 [97], .add ⟨11, 1, []⟩ (-1) 2 1 [98],
    .updateSocket ⟨12, 2, [97]⟩ 0 5] ++ [.updateSocket ⟨13, 3, [98]⟩ 1 6])
  exact missing (every.after run).1

/-- `erase` would find every key of every contact. -/
def Erasable (c : SContacts) : Prop := ∀ p ∈ c.contacts, ∀ found ∈ c.eraseLookups p, found = true

/-- No two of the contacts share a name or a socket. -/
def Apart (c : SContacts) (gone : Set Ptr) : Prop :=
  ∀ p ∈ gone, ∀ q ∈ gone, p ≠ q →
    (c.info p).name ≠ (c.info q).name ∧ (c.info p).socket ≠ (c.info q).socket

/-- When a call finds what it looks up and takes no key from a contact that stays: a
name or socket that is given up was not shared, or is entered again at once. -/
def KeepsKeys (c : SContacts) : Op → Prop
  | .add e socket ip port name =>
      (∀ x ∈ c.contacts, ¬ ((c.info x).ip = ip ∧ (c.info x).port = port)) →
        (∀ x ∈ c.contacts, (c.info x).name ≠ name) →
          c.Apart (c.victims e.now) ∧
            (c.lastPeerId ≠ intMax → byName.Spares c (c.victims e.now) ∧
              ∀ p ∈ c.victims e.now, ∀ x ∈ c.contacts \ c.victims e.now,
                (c.info x).socket = (c.info p).socket → (c.info x).socket = socket)
  | .updateSocket e p socket => p ∈ c.contacts →
      (e.stale = (c.info p).name ∨ byName.Spares c {p}) ∧
        (socket = (c.info p).socket ∨ bySocket.Spares c {p})
  | .updateName _ p name => p ∈ c.contacts → name = (c.info p).name ∨ byName.Spares c {p}
  | .doCleanUp now =>
      c.Apart (c.victims now) ∧ byName.Spares c (c.victims now) ∧
        bySocket.Spares c (c.victims now)
  | .getter _ _ => True

theorem eraseLookups_iff : (∀ found ∈ c.eraseLookups p, found = true) ↔
    byPeer.Finds c p ∧ byAddr.Finds c p ∧ byName.Finds c p ∧ bySocket.Finds c p := by
  simp [eraseLookups, Keyed.Finds, Option.isSome_iff_exists, byPeer, byAddr, byName, bySocket]

/-- Ids and addresses are always there. -/
theorem erasable_iff (addressed : Addressed c) :
    c.Erasable ↔ byName.Covers c ∧ bySocket.Covers c := by
  constructor
  · intro erasable
    exact ⟨fun p contact => (eraseLookups_iff.mp (erasable p contact)).2.2.1,
      fun p contact => (eraseLookups_iff.mp (erasable p contact)).2.2.2⟩
  · rintro ⟨names, sockets⟩ p contact
    exact eraseLookups_iff.mpr
      ⟨⟨p, contact.2⟩, ⟨p, addressed p contact⟩, names p contact, sockets p contact⟩

/-- The keys of the sweep are there. -/
def Swept (c : SContacts) (p : Ptr) : Prop :=
  byAddr.Finds c p ∧ byName.Finds c p ∧ bySocket.Finds c p

/-- Two records share no key of the sweep. -/
def KeysApart (c : SContacts) (p q : Ptr) : Prop :=
  (c.info p).getAddr ≠ (c.info q).getAddr ∧ (c.info p).name ≠ (c.info q).name ∧
    (c.info p).socket ≠ (c.info q).socket

theorem KeysApart.symm {q : Ptr} (apart : c.KeysApart p q) : c.KeysApart q p :=
  ⟨apart.1.symm, apart.2.1.symm, apart.2.2.symm⟩

theorem evictLookups_iff : (∀ found ∈ c.evictLookups now it, found = true) ↔
    (c.Idle now it.2 → c.Swept it.2) := by
  unfold evictLookups
  split
  case isTrue idle =>
    have old : c.Idle now it.2 := idle
    simp [old, Swept, Keyed.Finds, Option.isSome_iff_exists, byAddr, byName, bySocket]
  case isFalse busy =>
    have fresh : ¬ c.Idle now it.2 := busy
    simp [fresh]

theorem swept_evict_iff (own : (c.info it.2).peer = it.1) (idle : c.Idle now it.2) :
    (evict now c it).Swept p ↔ c.Swept p ∧ c.KeysApart it.2 p := by
  have removed := removed_evict own idle
  simp only [Swept, Keyed.finds_removed_iff removed, Set.mem_singleton_iff, forall_eq]
  simp only [byAddr, byName, bySocket, KeysApart]
  tauto

/-- The loop finds what it looks up if and only if the keys of all that it removes are
there when it starts and no two of these records share one. -/
theorem sweepLookups_iff (now : Int) (l : List (Sigma fun _ : SBusPeer => Ptr)) (c : SContacts)
    (nodup : l.NodupKeys) (own : ∀ it ∈ l, (c.info it.2).peer = it.1) :
    (∀ found ∈ sweepLookups now l c, found = true) ↔
      (∀ it ∈ l, c.Idle now it.2 → c.Swept it.2) ∧
        l.Pairwise fun a b => c.Idle now a.2 → c.Idle now b.2 → c.KeysApart a.2 b.2 := by
  induction l generalizing c with
  | nil => simp [sweepLookups]
  | cons it l ih =>
      have apart := visited_apart nodup own
      have nodup := (List.nodupKeys_cons.mp nodup).2
      have here := own it List.mem_cons_self
      have later : ∀ other ∈ l, (c.info other.2).peer = other.1 :=
        fun other mem => own other (List.mem_cons_of_mem it mem)
      rw [sweepLookups, List.forall_mem_append, evictLookups_iff, List.forall_mem_cons,
        List.pairwise_cons]
      by_cases idle : c.Idle now it.2
      · have first := removed_evict here idle
        have rest := ih (evict now c it) nodup fun other mem => by
          rw [info, first.cell]
          exact later other mem
        have still : ∀ other ∈ l, ((evict now c it).Idle now other.2 ↔ c.Idle now other.2) :=
          fun other mem => idle_evict_iff (apart other mem)
        have found : (∀ other ∈ l, (evict now c it).Idle now other.2 →
              (evict now c it).Swept other.2) ↔
            ∀ other ∈ l, c.Idle now other.2 → c.Swept other.2 ∧ c.KeysApart it.2 other.2 :=
          forall₂_congr fun other mem => by rw [still other mem, swept_evict_iff here idle]
        have pairs : (l.Pairwise fun a b => (evict now c it).Idle now a.2 →
              (evict now c it).Idle now b.2 → (evict now c it).KeysApart a.2 b.2) ↔
            l.Pairwise fun a b => c.Idle now a.2 → c.Idle now b.2 → c.KeysApart a.2 b.2 := by
          apply List.Pairwise.iff_of_mem
          intro a b ha hb
          rw [still a ha, still b hb, KeysApart, info, info, first.cell, KeysApart]
        rw [rest, found, pairs]
        constructor
        · rintro ⟨swept, others, pairwise⟩
          exact ⟨⟨swept, fun other mem old => (others other mem old).1⟩,
            fun other mem _ old => (others other mem old).2, pairwise⟩
        · rintro ⟨⟨swept, others⟩, clear, pairwise⟩
          exact ⟨swept, fun other mem old => ⟨others other mem old, clear other mem idle old⟩,
            pairwise⟩
      · rw [show evict now c it = c from if_neg idle, ih c nodup later]
        simp [idle]

/-- The sweep of a table whose keys are all there goes wrong only among the contacts
it removes. -/
theorem Erasable.cleanUpLookups_iff (erasable : c.Erasable) (ok : Consistent c)
    (addressed : Addressed c) :
    (∀ found ∈ c.cleanUpLookups now, found = true) ↔ c.Apart (c.victims now) := by
  unfold cleanUpLookups
  split
  case isTrue due =>
    have own := ok.sound.entry_peer
    have contact : ∀ it ∈ c.peers.entries, it.2 ∈ c.contacts := fun it mem =>
      (ok.sound.peers _ _ (AList.mem_lookup_iff.mpr mem)).1
    have symm : Std.Symm fun a b : Sigma fun _ : SBusPeer => Ptr =>
        c.Idle now a.2 → c.Idle now b.2 → c.KeysApart a.2 b.2 :=
      ⟨fun a b apart old old' => (apart old' old).symm⟩
    have loop : (∀ found ∈ sweepLookups now c.peers.entries { c with lastCleanUp := now },
          found = true) ↔
        (∀ it ∈ c.peers.entries, c.Idle now it.2 → c.Swept it.2) ∧
          c.peers.entries.Pairwise fun a b =>
            c.Idle now a.2 → c.Idle now b.2 → c.KeysApart a.2 b.2 :=
      sweepLookups_iff now c.peers.entries { c with lastCleanUp := now } c.peers.nodupKeys own
    rw [loop, ← c.peers.nodupKeys.nodup.pairwise_coe, victims_of_due due]
    constructor
    · rintro ⟨_, pairwise⟩ _ ⟨⟨a, ha, rfl⟩, idle⟩ _ ⟨⟨b, hb, rfl⟩, idle'⟩ other
      have apart : a ≠ b := fun same => other (congrArg Sigma.snd same)
      exact (pairwise ha hb apart idle idle').2
    · intro apart
      refine ⟨fun it mem idle => ?_, fun a ha b hb other idle idle' => ?_⟩
      · exact (eraseLookups_iff.mp (erasable it.2 (contact it mem))).2
      · have ne : a.2 ≠ b.2 := by
          intro same
          have id : a.1 = b.1 := by rw [← own a ha, ← own b hb, same]
          exact other (Sigma.ext id (heq_of_eq same))
        refine ⟨fun same => ne ?_, apart a.2 ⟨⟨a, ha, rfl⟩, idle⟩ b.2 ⟨⟨b, hb, rfl⟩, idle'⟩ ne⟩
        exact addressed.injOn (contact a ha) (contact b hb) same
  case isFalse early => simp [victims_of_early early, Apart]

/-- An update finds the keys of the contact it is called with. -/
theorem Erasable.update_finds (erasable : c.Erasable) (p : Ptr) :
    ∀ found ∈ if p ∈ c.contacts then c.eraseLookups p else [], found = true := by
  split
  case isTrue contact => exact erasable p contact
  case isFalse stranger => simp

theorem Erasable.add_finds_iff (erasable : c.Erasable) (ok : Consistent c)
    (addressed : Addressed c) {socket : SocketType} {ip : IP} {port : Port} {name : CString} :
    c.FindsKeys (.add e socket ip port name) ↔
      (c.findIpPort ip port = none → c.findName name = none → c.Apart (c.victims e.now)) := by
  rw [FindsKeys, lookups, ← and_imp, ← erasable.cleanUpLookups_iff ok addressed]
  split
  case isTrue unknown => simp [unknown]
  case isFalse known => simp [known]

theorem Erasable.removed_iff (erasable : c.Erasable) (addressed : Addressed c)
    (removed : Removed c d gone) (sub : gone ⊆ c.contacts) :
    d.Erasable ↔ byName.Spares c gone ∧ bySocket.Spares c gone := by
  obtain ⟨names, sockets⟩ := (erasable_iff addressed).mp erasable
  rw [erasable_iff (addressed.removed removed sub), Keyed.covers_removed_iff names removed sub,
    Keyed.covers_removed_iff sockets removed sub]

theorem Erasable.replace_iff (erasable : c.Erasable) (addressed : Addressed c)
    (contact : p ∈ c.contacts) (same : SameContact r (c.info p)) :
    ((c.erase e.now p).file e r).2.Erasable ↔
      (r.name = (c.info p).name ∨ byName.Spares c {p}) ∧
        (r.socket = (c.info p).socket ∨ bySocket.Spares c {p}) := by
  obtain ⟨names, sockets⟩ := (erasable_iff addressed).mp erasable
  rw [erasable_iff (addressed.replace contact same e.now e),
    Keyed.covers_replace_iff names contact same.1,
    Keyed.covers_replace_iff sockets contact same.1]
  rfl

/-- The name of a new contact was nobody's, but its socket may be that of others. -/
theorem Erasable.add_iff (erasable : c.Erasable) (ok : Consistent c) (addressed : Addressed c)
    (own : r.peer = c.lastPeerId + 1) (missing : c.findIpPort r.ip r.port = none)
    (nobody : ∀ x ∈ c.contacts, (c.info x).name ≠ r.name) :
    ((c.doCleanUp e.now).bump.file e r).2.Erasable ↔
      byName.Spares c (c.victims e.now) ∧
        ∀ p ∈ c.victims e.now, ∀ x ∈ c.contacts \ c.victims e.now,
          (c.info x).socket = (c.info p).socket → (c.info x).socket = r.socket := by
  obtain ⟨names, sockets⟩ := (erasable_iff addressed).mp erasable
  have removed := removed_bump ok.sound e.now
  have sub := ok.victims_subset e.now
  have new : ∀ x ∈ (c.doCleanUp e.now).bump.contacts,
      ((c.doCleanUp e.now).bump.info x).peer ≠ r.peer := ok.next_id_free own
  rw [erasable_iff (addressed.add_new ok own missing e),
    Keyed.covers_add_iff names removed sub new nobody,
    Keyed.covers_refile_iff sockets removed sub new]
  rfl

theorem erasable_empty : empty.Erasable := by
  intro p contact
  simp [contacts, empty] at contact

/-- One call finds what it looks up and leaves no contact without a key exactly when it
meets the condition. -/
theorem Erasable.exec_iff (erasable : c.Erasable) (ok : Consistent c) (addressed : Addressed c)
    (op : Op) :
    (c.FindsKeys op ∧ ∀ c', c.exec op = some c' → c'.Erasable) ↔ c.KeepsKeys op := by
  cases op with
  | add e socket ip port name =>
      have found := (namesFound_iff ok).mpr ((erasable_iff addressed).mp erasable).1
      have filed := fun (missing : c.findIpPort ip port = none)
          (unnamed : c.findName name = none) =>
        erasable.add_iff (e := e)
          (r := { peer := (c.doCleanUp e.now).bump.lastPeerId, ip, port, socket, name }) ok
          addressed bump_lastPeerId missing ((found.findName_eq_none_iff ok).mp unnamed)
      rw [erasable.add_finds_iff ok addressed, after_add_iff erasable, KeepsKeys,
        ← addressed.findIpPort_eq_none_iff ok, ← found.findName_eq_none_iff ok]
      constructor
      · rintro ⟨apart, all⟩ missing unnamed
        exact ⟨apart missing unnamed, fun more =>
          (filed missing unnamed).mp (all missing unnamed more)⟩
      · intro kept
        exact ⟨fun missing unnamed => (kept missing unnamed).1, fun missing unnamed more =>
          (filed missing unnamed).mpr ((kept missing unnamed).2 more)⟩
  | updateSocket e p socket =>
      refine (and_iff_right (erasable.update_finds p)).trans (after_call_iff fun contact => ?_)
      exact erasable.replace_iff addressed contact ⟨rfl, rfl, rfl⟩
  | updateName e p name =>
      refine (and_iff_right (erasable.update_finds p)).trans (after_call_iff fun contact => ?_)
      rw [show (c.updateName e p name).2.Erasable ↔ _ from
        erasable.replace_iff addressed contact ⟨rfl, rfl, rfl⟩]
      exact and_iff_left (.inl rfl)
  | doCleanUp now =>
      rw [KeepsKeys, ← erasable.cleanUpLookups_iff ok addressed, ← erasable.removed_iff addressed
        (removed_doCleanUp ok.sound now) (ok.victims_subset now)]
      apply and_congr_right'
      exact ⟨fun all => all _ rfl, fun kept c' call => Option.some.inj call ▸ kept⟩
  | getter now p =>
      refine iff_of_true ⟨by simp [FindsKeys, lookups], fun c' call => ?_⟩ trivial
      obtain rfl := Option.some.inj call
      exact erasable

/-- In every run all keys looked up for removal are there, and stay there for all
contacts, if and only if every call meets the condition. -/
theorem keys_found_iff (ops : List Op) :
    (EachStep (Det exec) FindsKeys empty ops ∧ Always (Det exec) Erasable empty ops) ↔
      EachStep (Det exec) KeepsKeys empty ops := by
  rw [always_iff erasable_empty, ← eachStep_and]
  refine eachStep_iff (I := fun c => Consistent c ∧ Addressed c ∧ Erasable c)
    ⟨consistent_empty, addressed_empty, erasable_empty⟩ ?_ ?_
  · rintro c op _ c' ⟨ok, addressed, erasable⟩ keeps call
    exact ⟨ok.exec call, (evolves_exec ok addressed call).addressed,
      ((erasable.exec_iff ok addressed op).mpr keeps).2 c' call⟩
  · rintro c op _ ⟨ok, addressed, erasable⟩
    exact erasable.exec_iff ok addressed op

end LibSBus.SContacts
