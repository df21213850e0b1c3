import LibSBus.SContacts.Addresses

/-!
What a call does to the keys of the contacts, for each of the four maps alike. A map
covers the contacts when the key of each has an entry, its own or that of another
contact with the same key. Erasing a contact takes the entry of its key away from all
that share it, and filing a record puts one entry back.
-/

namespace LibSBus.SContacts

open Lib

/-- One of the four maps, with what its keys are made of. -/
structure Keyed (κ : Type) [DecidableEq κ] where
  key : SPeerInfo → κ
  index : SContacts → Index κ Ptr
  removed : ∀ {c d gone}, Removed c d gone →
    Index.Without key c.heap.cell gone (index c) (index d)
  file : ∀ (c : SContacts) e r, index (c.file e r).2 = (index c).insert (key r) (c.file e r).1

def byPeer : Keyed SBusPeer := ⟨SPeerInfo.peer, peers, Removed.peers, fun _ _ _ => rfl⟩

def byAddr : Keyed CString := ⟨SPeerInfo.getAddr, addr2peer, Removed.addrs, fun _ _ _ => rfl⟩

def byName : Keyed CString := ⟨SPeerInfo.name, name2peer, Removed.names, fun _ _ _ => rfl⟩

def bySocket : Keyed SocketType :=
  ⟨SPeerInfo.socket, socket2peer, Removed.sockets, fun _ _ _ => rfl⟩

namespace Keyed

variable {κ : Type} [DecidableEq κ] (K : Keyed κ)

/-- The key of the record at `p` has an entry. -/
def Finds (c : SContacts) (p : Ptr) : Prop :=
  ∃ q, (K.index c).lookup (K.key (c.info p)) = some q

/-- Every contact's key has an entry. -/
def Covers (c : SContacts) : Prop := ∀ p ∈ c.contacts, K.Finds c p

/-- No contact that stays has the key of one that goes. -/
def Spares (c : SContacts) (gone : Set Ptr) : Prop :=
  ∀ p ∈ gone, ∀ x ∈ c.contacts \ gone, K.key (c.info x) ≠ K.key (c.info p)

variable {K} {c d : SContacts} {gone : Set Ptr} {e : CallEnv} {p : Ptr} {r : SPeerInfo}

/-- A key is still there after some contacts were removed if none of them had it. -/
theorem finds_removed_iff (removed : Removed c d gone) :
    K.Finds d p ↔ K.Finds c p ∧ ∀ x ∈ gone, K.key (c.info x) ≠ K.key (c.info p) := by
  rw [Finds, info, removed.cell, Finds, ← exists_and_right]
  exact exists_congr fun q => K.removed removed _ q

theorem covers_removed_iff (covers : K.Covers c) (removed : Removed c d gone)
    (sub : gone ⊆ c.contacts) : K.Covers d ↔ K.Spares c gone := by
  show Index.Covered K.key d.heap.cell d.contacts (K.index d) ↔ _
  rw [removed.contacts_eq sub, removed.cell]
  exact Index.Covered.without_iff covers (K.removed removed)

/-- Filing a record afterwards mends the loss of its own key only. -/
theorem covers_refile_iff (covers : K.Covers c) (removed : Removed c d gone)
    (sub : gone ⊆ c.contacts) (new : ∀ x ∈ d.contacts, (d.info x).peer ≠ r.peer) :
    K.Covers (d.file e r).2 ↔
      ∀ p ∈ gone, ∀ x ∈ c.contacts \ gone, K.key (c.info x) = K.key (c.info p) →
        K.key (c.info x) = K.key r := by
  have filed : K.Covers (d.file e r).2 ↔
      Index.Covered K.key d.heap.cell d.contacts ((K.index d).insert (K.key r) (d.file e r).1) := by
    rw [← Index.covered_file_iff fun contact => file_fresh contact.1, ← contacts_file new,
      ← K.file, ← file_cell]
    rfl
  rw [filed, removed.contacts_eq sub, removed.cell]
  exact Index.Covered.insert_iff covers (K.removed removed)

/-- It mends nothing if the key was nobody's. -/
theorem covers_add_iff (covers : K.Covers c) (removed : Removed c d gone)
    (sub : gone ⊆ c.contacts) (new : ∀ x ∈ d.contacts, (d.info x).peer ≠ r.peer)
    (nobody : ∀ x ∈ c.contacts, K.key (c.info x) ≠ K.key r) :
    K.Covers (d.file e r).2 ↔ K.Spares c gone := by
  rw [covers_refile_iff covers removed sub new]
  constructor
  · intro mended p hp x hx shared
    exact nobody x hx.1 (mended p hp x hx shared)
  · intro spared p hp x hx shared
    exact absurd shared (spared p hp x hx)

/-- Both updates: the contact keeps its key, or nobody else had it. -/
theorem covers_replace_iff (covers : K.Covers c) (contact : p ∈ c.contacts)
    (own : r.peer = (c.info p).peer) :
    K.Covers ((c.erase e.now p).file e r).2 ↔
      K.key r = K.key (c.info p) ∨ K.Spares c {p} := by
  rw [covers_refile_iff covers (removed_erase c e.now p) (Set.singleton_subset_iff.mpr contact)
    (own ▸ erased_id_free contact e.now)]
  constructor
  · intro mended
    by_cases same : K.key r = K.key (c.info p)
    · exact .inl same
    · refine .inr ?_
      rintro _ rfl x hx shared
      exact same ((mended _ rfl x hx shared).symm.trans shared)
  · rintro (same | spared) _ rfl x hx shared
    · exact shared.trans same.symm
    · exact absurd shared (spared _ rfl x hx)

end Keyed

end LibSBus.SContacts
