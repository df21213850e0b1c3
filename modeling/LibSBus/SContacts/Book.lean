import LibSBus.Lib.Views
import LibSBus.SContacts.Activity
import LibSBus.SContacts.Keys

/-!
What the table is for, without its memory: an address book. It has a card for each
id, and it remembers under which id a name and a socket were last entered. There
are no pointers and no records, and an address is looked up on the cards.

The table with its heap and its four maps does the same as the book. The name and
the socket are the only keys the book has to remember, because a card that loses
either of them to another one does not get it back.
-/

namespace LibSBus

open Lib

/-- What is known of a peer. -/
structure Card where
  ip : IP
  port : Port
  socket : SocketType
  name : CString
  lastActivity : Int

structure AddressBook where
  lastPeerId : Int
  lastCleanUp : Int
  card : SBusPeer → Option Card
  named : CString → Option SBusPeer
  connected : SocketType → Option SBusPeer

namespace AddressBook

open SContacts (maxAllowedPeerinfoIdleS minCleanupPeriodS)

def empty : AddressBook :=
  { lastPeerId := 0, lastCleanUp := -1, card := fun _ => none, named := fun _ => none
    connected := fun _ => none }

/-- The card of `peer` shows the address. -/
def At (b : AddressBook) (ip : IP) (port : Port) (peer : SBusPeer) : Prop :=
  ∃ card, b.card peer = some card ∧ card.ip = ip ∧ card.port = port

open Classical in
noncomputable def findIpPort (b : AddressBook) (ip : IP) (port : Port) : Option SBusPeer :=
  if h : ∃ peer, b.At ip port peer then some h.choose else none

/-- Some card that is taken out has the name, or the socket, or whatever `key` tells. -/
def Takes {κ : Type} (b : AddressBook) (key : Card → κ) (gone : Set SBusPeer) (k : κ) : Prop :=
  ∃ peer ∈ gone, ∃ card, b.card peer = some card ∧ key card = k

open Classical in
/-- Cards are taken out, and what was remembered of their names and sockets with
them, whoever it was remembered for. -/
noncomputable def drop (b : AddressBook) (gone : Set SBusPeer) : AddressBook :=
  { b with
    card := fun peer => if peer ∈ gone then none else b.card peer
    named := fun name => if b.Takes Card.name gone name then none else b.named name
    connected := fun socket =>
      if b.Takes Card.socket gone socket then none else b.connected socket }

/-- A card is put in, and every other one gets its stamp. -/
def enter (b : AddressBook) (peer : SBusPeer) (card : Card) : AddressBook :=
  { b with
    card := fun other =>
      if other = peer then some card
      else (b.card other).map fun old => { old with lastActivity := card.lastActivity }
    named := Function.update b.named card.name (some peer)
    connected := Function.update b.connected card.socket (some peer) }

/-- The ids whose cards show no activity for too long. -/
def idle (b : AddressBook) (now : Int) : Set SBusPeer :=
  {peer | ∃ card, b.card peer = some card ∧ now - card.lastActivity > maxAllowedPeerinfoIdleS}

noncomputable def doCleanUp (b : AddressBook) (now : Int) : AddressBook :=
  if now - b.lastCleanUp > minCleanupPeriodS then { b.drop (b.idle now) with lastCleanUp := now }
  else b

noncomputable def add (b : AddressBook) (now : Int) (socket : SocketType) (ip : IP) (port : Port)
    (name : CString) : Option (SBusPeer × AddressBook) :=
  match b.findIpPort ip port with
  | some peer => some (peer, b)
  | none =>
      match b.named name with
      | some peer => some (peer, b)
      | none =>
          if b.lastPeerId = intMax then none
          else
            let peer := b.lastPeerId + 1
            some (peer, { b.doCleanUp now with lastPeerId := peer }.enter peer
              { ip, port, socket, name, lastActivity := now })

/-- The card of `peer` is taken out and a changed one put in. -/
noncomputable def replace (b : AddressBook) (peer : SBusPeer) (change : Card → Card) :
    Option AddressBook :=
  (b.card peer).map fun card => (b.drop {peer}).enter peer (change card)

def touch (b : AddressBook) (now : Int) (peer : SBusPeer) : AddressBook :=
  { b with
    card := fun other =>
      if other = peer then (b.card other).map fun old => { old with lastActivity := now }
      else b.card other }

/-- The calls on the book. Where the table is given a pointer the book is given an
id, and none for a pointer that no contact has. -/
inductive Call
  | add (now : Int) (socket : SocketType) (ip : IP) (port : Port) (name : CString)
  | updateSocket (now : Int) (peer : Option SBusPeer) (socket : SocketType) (name : CString)
  | updateName (now : Int) (peer : Option SBusPeer) (name : CString)
  | doCleanUp (now : Int)
  | getter (now : Int) (peer : Option SBusPeer)

noncomputable def exec (b : AddressBook) : Call → Option AddressBook
  | .add now socket ip port name => (b.add now socket ip port name).map Prod.snd
  | .updateSocket now peer socket name =>
      peer.bind fun peer => b.replace peer fun card =>
        { card with socket := socket, name := name, lastActivity := now }
  | .updateName now peer name =>
      peer.bind fun peer => b.replace peer fun card =>
        { card with name := name, lastActivity := now }
  | .doCleanUp now => some (b.doCleanUp now)
  | .getter now peer => some (peer.elim b (b.touch now))

end AddressBook

namespace SContacts

variable {c c' d : SContacts} {gone : Set Ptr} {e : CallEnv} {now : Int} {p q : Ptr}
  {r : SPeerInfo} {op : Op}

def card (c : SContacts) (p : Ptr) : Card :=
  { ip := (c.info p).ip, port := (c.info p).port, socket := (c.info p).socket
    name := (c.info p).name, lastActivity := c.heap.lastActivity p }

/-- The table as a book. -/
def book (c : SContacts) : AddressBook :=
  { lastPeerId := c.lastPeerId
    lastCleanUp := c.lastCleanUp
    card := c.peers.view c.card
    named := c.name2peer.view fun p => (c.info p).peer
    connected := c.socket2peer.view fun p => (c.info p).peer }

/-- The id of the contact at `p`. -/
def idAt (c : SContacts) (p : Ptr) : Option SBusPeer :=
  if p ∈ c.contacts then some (c.info p).peer else none

/-- The call on the book that a call on the table is. -/
def call (c : SContacts) : Op → AddressBook.Call
  | .add e socket ip port name => .add e.now socket ip port name
  | .updateSocket e p socket => .updateSocket e.now (c.idAt p) socket e.stale
  | .updateName e p name => .updateName e.now (c.idAt p) name
  | .doCleanUp now => .doCleanUp now
  | .getter now p => .getter now (c.idAt p)

def calls (c : SContacts) : List Op → List AddressBook.Call
  | [] => []
  | op :: ops =>
      c.call op :: match c.exec op with
        | none => []
        | some c' => calls c' ops

theorem card_of_contact (contact : p ∈ c.contacts) :
    c.book.card (c.info p).peer = some (c.card p) :=
  Index.view_eq_some_iff.mpr ⟨p, contact.2, rfl⟩

/-- A card is that of a contact. -/
theorem Consistent.of_card {peer : SBusPeer} {card : Card} (ok : Consistent c)
    (shown : c.book.card peer = some card) :
    ∃ p ∈ c.contacts, (c.info p).peer = peer ∧ c.card p = card := by
  obtain ⟨p, entry, same⟩ := Index.view_eq_some_iff.mp shown
  obtain ⟨contact, own⟩ := ok.sound.peers peer p entry
  exact ⟨p, contact, own, same⟩

/-- The ids of some records. -/
def idsOf (c : SContacts) (gone : Set Ptr) : Set SBusPeer := (fun p => (c.info p).peer) '' gone

theorem takes_iff {κ : Type} {key : Card → κ} {k : κ} (sub : gone ⊆ c.contacts) :
    c.book.Takes key (c.idsOf gone) k ↔ ∃ p ∈ gone, key (c.card p) = k := by
  constructor
  · rintro ⟨_, ⟨p, hp, rfl⟩, card, shown, carries⟩
    obtain rfl := Option.some.inj ((card_of_contact (sub hp)).symm.trans shown)
    exact ⟨p, hp, carries⟩
  · rintro ⟨p, hp, carries⟩
    exact ⟨_, ⟨p, hp, rfl⟩, _, card_of_contact (sub hp), carries⟩

open Classical in
theorem view_removed {κ : Type} [DecidableEq κ] (K : Keyed κ) (key : Card → κ)
    (same : ∀ p, key (c.card p) = K.key (c.info p)) (removed : Removed c d gone)
    (sub : gone ⊆ c.contacts) (f : Ptr → SBusPeer) (k : κ) :
    Index.view f (K.index d) k =
      if c.book.Takes key (c.idsOf gone) k then none else Index.view f (K.index c) k := by
  rw [Index.view_without (K.removed removed)]
  apply if_congr _ rfl rfl
  rw [takes_iff sub]
  simp only [same]

/-- Removing contacts takes their cards out. -/
theorem Consistent.book_removed (ok : Consistent c) (removed : Removed c d gone)
    (sub : gone ⊆ c.contacts)
    (stamps : ∀ x ∈ d.contacts, d.heap.lastActivity x = c.heap.lastActivity x) :
    d.book = { c.book.drop (c.idsOf gone) with
      lastPeerId := d.lastPeerId, lastCleanUp := d.lastCleanUp } := by
  have cards : d.peers.view d.card = (c.book.drop (c.idsOf gone)).card := by
    funext peer
    have shown : d.peers.view d.card peer = d.peers.view c.card peer := by
      apply Index.view_congr
      intro p entry
      have contact := ((ok.removed removed sub).sound.peers peer p entry).1
      simp only [card, info, removed.cell, stamps p contact]
    rw [shown, Index.view_without removed.peers]
    rfl
  have ids : (fun p => (d.info p).peer) = fun p => (c.info p).peer := by
    simp only [info, removed.cell]
  have names := funext (view_removed byName Card.name (fun _ => rfl) removed sub
    fun p => (c.info p).peer)
  have sockets := funext (view_removed bySocket Card.socket (fun _ => rfl) removed sub
    fun p => (c.info p).peer)
  rw [book, ids, cards]
  exact congrArg₂ (AddressBook.mk _ _ _) names sockets

/-- The card of a record that was filed, at the time it was. -/
def filedCard (e : CallEnv) (r : SPeerInfo) : Card :=
  { ip := r.ip, port := r.port, socket := r.socket, name := r.name, lastActivity := e.now }

theorem card_file_self (new : ∀ x ∈ c.contacts, (c.info x).peer ≠ r.peer) :
    (c.file e r).2.card (c.file e r).1 = filedCard e r := by
  have contact : (c.file e r).1 ∈ (c.file e r).2.contacts := by
    rw [contacts_file new]
    exact Set.mem_insert _ _
  simp only [card, info_file_self, file_lastActivity contact.2, filedCard]

/-- `show` stamps the contacts that were there. -/
theorem card_file_of_contact (new : ∀ x ∈ c.contacts, (c.info x).peer ≠ r.peer)
    (old : p ∈ c.contacts) :
    (c.file e r).2.card p = { c.card p with lastActivity := e.now } := by
  have contact : p ∈ (c.file e r).2.contacts := by
    rw [contacts_file new]
    exact Set.mem_insert_of_mem _ old
  simp only [card, info_file_of_live old.1, file_lastActivity contact.2]

/-- Filing a record puts its card in, and `show` stamps the others. -/
theorem Consistent.book_file (ok : Consistent c)
    (new : ∀ x ∈ c.contacts, (c.info x).peer ≠ r.peer) :
    (c.file e r).2.book = c.book.enter r.peer (filedCard e r) := by
  have cards : (c.file e r).2.peers.view (c.file e r).2.card =
      (c.book.enter r.peer (filedCard e r)).card := by
    funext peer
    show Index.view _ (c.peers.insert r.peer (c.file e r).1) peer = _
    rw [Index.view_insert, card_file_self new, Function.update_apply]
    apply if_congr Iff.rfl rfl
    unfold book Index.view
    rw [Option.map_map]
    cases entry : c.peers.lookup peer with
    | none => rfl
    | some p => exact congrArg some (card_file_of_contact new (ok.sound.peers peer p entry).1)
  have ids : ∀ {κ : Type} [DecidableEq κ] {key : SPeerInfo → κ} {m : Index κ Ptr} {k : κ},
      Index.Sound key c.heap.cell c.contacts m →
      Index.view (fun p => ((c.file e r).2.info p).peer) (m.insert k (c.file e r).1) =
        Function.update (Index.view (fun p => (c.info p).peer) m) k (some r.peer) := by
    intro κ _ key m k sound
    have kept : Index.view (fun p => ((c.file e r).2.info p).peer) m =
        Index.view (fun p => (c.info p).peer) m := by
      funext l
      apply Index.view_congr
      intro p entry
      exact congrArg SPeerInfo.peer (info_file_of_live (sound l p entry).1.1)
    rw [Index.view_insert, kept, info_file_self]
  rw [book, cards]
  exact congrArg₂ (AddressBook.mk _ _ _) (ids ok.sound.names) (ids ok.sound.sockets)

private theorem foldl_evict_lastCleanUp (l : List (Sigma fun _ : SBusPeer => Ptr))
    (c : SContacts) : (l.foldl (evict now) c).lastCleanUp = c.lastCleanUp := by
  induction l generalizing c with
  | nil => rfl
  | cons it l ih =>
      rw [List.foldl_cons, ih]
      unfold evict
      split <;> rfl

theorem doCleanUp_lastCleanUp (due : now - c.lastCleanUp > minCleanupPeriodS) :
    (c.doCleanUp now).lastCleanUp = now := by
  rw [doCleanUp, if_pos due]
  exact foldl_evict_lastCleanUp _ _

theorem Consistent.idsOf_victims (ok : Consistent c)
    (due : now - c.lastCleanUp > minCleanupPeriodS) :
    c.idsOf (c.victims now) = c.book.idle now := by
  ext peer
  constructor
  · rintro ⟨p, victim, rfl⟩
    exact ⟨c.card p, card_of_contact (ok.victims_subset now victim), victim.2.2⟩
  · rintro ⟨card, shown, idle⟩
    obtain ⟨p, contact, rfl, rfl⟩ := ok.of_card shown
    exact ⟨p, ⟨due, ⟨_, contact.2⟩, idle⟩, rfl⟩

/-- A sweep of the table is a sweep of the book. -/
theorem Consistent.book_doCleanUp (ok : Consistent c) (now : Int) :
    (c.doCleanUp now).book = c.book.doCleanUp now := by
  unfold AddressBook.doCleanUp
  split
  case isTrue due =>
    have sub := ok.victims_subset now
    have removed := removed_doCleanUp ok.sound now
    have stamps : ∀ x ∈ (c.doCleanUp now).contacts,
        (c.doCleanUp now).heap.lastActivity x = c.heap.lastActivity x := by
      rw [removed.contacts_eq sub]
      exact fun x stays => doCleanUp_lastActivity stays.2
    rw [ok.book_removed removed sub stamps, ok.idsOf_victims due, doCleanUp_lastPeerId,
      doCleanUp_lastCleanUp due]
    rfl
  case isFalse early =>
    have early : ¬ now - c.lastCleanUp > minCleanupPeriodS := early
    rw [SContacts.doCleanUp, if_neg early]

/-- An update takes the contact's card out and puts the changed one in. -/
theorem Consistent.book_replace (ok : Consistent c) (contact : p ∈ c.contacts)
    (own : r.peer = (c.info p).peer) (e : CallEnv) :
    ((c.erase e.now p).file e r).2.book =
      (c.book.drop {(c.info p).peer}).enter (c.info p).peer (filedCard e r) := by
  have removed := removed_erase c e.now p
  have sub := Set.singleton_subset_iff.mpr contact
  have stamps : ∀ x ∈ (c.erase e.now p).contacts,
      (c.erase e.now p).heap.lastActivity x = c.heap.lastActivity x := by
    rw [removed.contacts_eq sub]
    exact fun x stays => Function.update_of_ne stays.2 _ _
  rw [(ok.removed removed sub).book_file (own ▸ erased_id_free contact e.now), own,
    ok.book_removed removed sub stamps, idsOf, Set.image_singleton]
  rfl

theorem Consistent.at_iff (ok : Consistent c) {ip : IP} {port : Port} {peer : SBusPeer} :
    c.book.At ip port peer ↔
      ∃ p ∈ c.contacts,
        (c.info p).peer = peer ∧ (c.info p).ip = ip ∧ (c.info p).port = port := by
  constructor
  · rintro ⟨card, shown, sameIp, samePort⟩
    obtain ⟨p, contact, own, rfl⟩ := ok.of_card shown
    exact ⟨p, contact, own, sameIp, samePort⟩
  · rintro ⟨p, contact, rfl, sameIp, samePort⟩
    exact ⟨c.card p, card_of_contact contact, sameIp, samePort⟩

/-- The map of rendered addresses finds the card that shows the address. -/
theorem Consistent.book_findIpPort (ok : Consistent c) (addressed : Addressed c) (ip : IP)
    (port : Port) :
    c.book.findIpPort ip port = (c.findIpPort ip port).map fun p => (c.info p).peer := by
  have found : ∀ p, c.findIpPort ip port = some p ↔
      p ∈ c.contacts ∧ (c.info p).ip = ip ∧ (c.info p).port = port := by
    intro p
    rw [findIpPort, addressed.lookup_eq_some_iff ok.sound.addrs, SPeerInfo.getAddr,
      ipnport2addr_inj]
  unfold AddressBook.findIpPort
  split
  case isTrue shown =>
    obtain ⟨p, contact, own, address⟩ := ok.at_iff.mp shown.choose_spec
    rw [(found p).mpr ⟨contact, address⟩, Option.map_some, own]
  case isFalse unknown =>
    cases entry : c.findIpPort ip port with
    | none => rfl
    | some p =>
        obtain ⟨contact, address⟩ := (found p).mp entry
        exact absurd ⟨_, ok.at_iff.mpr ⟨p, contact, rfl, address⟩⟩ unknown

theorem Consistent.book_bump (ok : Consistent c) (now : Int) :
    (c.doCleanUp now).bump.book =
      { c.book.doCleanUp now with lastPeerId := c.lastPeerId + 1 } := by
  have next : (c.doCleanUp now).bump.lastPeerId = c.lastPeerId + 1 := bump_lastPeerId
  rw [← ok.book_doCleanUp, ← next]
  rfl

/-- A new contact is a new card. -/
theorem Consistent.book_add_new (ok : Consistent c) (own : r.peer = c.lastPeerId + 1)
    (e : CallEnv) :
    ((c.doCleanUp e.now).bump.file e r).2.book =
      { c.book.doCleanUp e.now with lastPeerId := c.lastPeerId + 1 }.enter (c.lastPeerId + 1)
        (filedCard e r) := by
  have cleaned := ok.removed (removed_bump ok.sound e.now) (ok.victims_subset e.now)
  rw [cleaned.book_file (ok.next_id_free own), own, ok.book_bump]

/-- `add` gives the contact it returns the id under which the book has it. -/
theorem Consistent.book_add (ok : Consistent c) (addressed : Addressed c) (e : CallEnv)
    (socket : SocketType) (ip : IP) (port : Port) (name : CString) :
    (c.add e socket ip port name).map (fun made => ((made.2.info made.1).peer, made.2.book)) =
      c.book.add e.now socket ip port name := by
  unfold AddressBook.add
  rw [ok.book_findIpPort addressed]
  cases known : c.findIpPort ip port with
  | some p =>
      rw [SContacts.add, known]
      rfl
  | none =>
      have shown : c.book.named name = (c.findName name).map fun p => (c.info p).peer := rfl
      rw [shown]
      cases namesake : c.findName name with
      | some p =>
          rw [SContacts.add, known]
          simp only [namesake]
          rfl
      | none =>
          simp only [Option.map_none]
          split
          case isTrue last =>
            have full : (c.doCleanUp e.now).lastPeerId = intMax := doCleanUp_lastPeerId.trans last
            rw [SContacts.add, known]
            simp only [namesake, full, if_pos]
            rfl
          case isFalse more =>
            rw [add_of_new known namesake more, Option.map_some, info_file_self,
              ok.book_add_new bump_lastPeerId, bump_lastPeerId]
            rfl

theorem bind_idAt {β : Type} (p : Ptr) (f : SBusPeer → Option β) :
    (c.idAt p).bind f = if p ∈ c.contacts then f (c.info p).peer else none := by
  unfold idAt
  split <;> rfl

theorem replace_of_contact (contact : p ∈ c.contacts) (change : Card → Card) :
    c.book.replace (c.info p).peer change =
      some ((c.book.drop {(c.info p).peer}).enter (c.info p).peer (change (c.card p))) := by
  rw [AddressBook.replace, card_of_contact contact]
  rfl

theorem card_touch_self : (c.touch now p).card p = { c.card p with lastActivity := now } := by
  simp only [card, touch, Heap.touch, Function.update_self]

theorem card_touch_of_ne (other : q ≠ p) : (c.touch now p).card q = c.card q := by
  simp only [card, touch, Heap.touch, Function.update_of_ne other]

/-- A getter stamps the card of the contact it is called on, if it is one. -/
theorem Consistent.book_touch (ok : Consistent c) (now : Int) (p : Ptr) :
    (c.touch now p).book = (c.idAt p).elim c.book (c.book.touch now) := by
  have entry_contact : ∀ peer q, c.peers.lookup peer = some q →
      q ∈ c.contacts ∧ (c.info q).peer = peer := ok.sound.peers
  unfold idAt
  split
  case isTrue contact =>
    have cards : c.peers.view (c.touch now p).card = (c.book.touch now (c.info p).peer).card := by
      funext peer
      show _ = if peer = (c.info p).peer then
        (c.peers.view c.card peer).map fun old => { old with lastActivity := now }
        else c.peers.view c.card peer
      unfold Index.view
      cases entry : c.peers.lookup peer with
      | none => simp
      | some q =>
          obtain ⟨other, rfl⟩ := entry_contact peer q entry
          split
          case isTrue same =>
            obtain rfl := peer_injOn other contact same
            exact congrArg some card_touch_self
          case isFalse different =>
            have apart : q ≠ p := fun same => different (same ▸ rfl)
            exact congrArg some (card_touch_of_ne apart)
    rw [book, Option.elim_some]
    exact congrArg (fun cards => AddressBook.mk _ _ cards _ _) cards
  case isFalse stranger =>
    have cards : c.peers.view (c.touch now p).card = c.peers.view c.card := by
      funext peer
      apply Index.view_congr
      intro q entry
      apply card_touch_of_ne
      rintro rfl
      exact stranger (entry_contact peer q entry).1
    exact congrArg (fun cards => AddressBook.mk _ _ cards _ _) cards

/-- One call on the table is one call on the book. -/
theorem Consistent.book_exec (ok : Consistent c) (addressed : Addressed c) (op : Op) :
    (c.exec op).map book = c.book.exec (c.call op) := by
  cases op with
  | add e socket ip port name =>
      rw [call, AddressBook.exec, ← ok.book_add addressed, SContacts.exec, Option.map_map,
        Option.map_map]
      rfl
  | updateSocket e p socket =>
      rw [call, AddressBook.exec, bind_idAt, SContacts.exec]
      split
      case isTrue contact =>
        rw [replace_of_contact contact, Option.map_some]
        exact congrArg some (ok.book_replace (r := { c.info p with socket, name := e.stale })
          contact rfl e)
      case isFalse stranger => rfl
  | updateName e p name =>
      rw [call, AddressBook.exec, bind_idAt, SContacts.exec]
      split
      case isTrue contact =>
        rw [replace_of_contact contact, Option.map_some]
        exact congrArg some (ok.book_replace (r := { c.info p with name }) contact rfl e)
      case isFalse stranger => rfl
  | doCleanUp now => exact congrArg some (ok.book_doCleanUp now)
  | getter now p => exact congrArg some (ok.book_touch now p)

/-- A run of calls on the table is the run of the calls on the book that they are: it
goes through when the book's does, and to the table that is the book's result. -/
theorem book_run (ok : Consistent c) (addressed : Addressed c) (ops : List Op) :
    (ops.foldlM exec c).map book = (c.calls ops).foldlM AddressBook.exec c.book := by
  induction ops generalizing c with
  | nil => rfl
  | cons op ops ih =>
      rw [calls, List.foldlM_cons, List.foldlM_cons, ← ok.book_exec addressed op]
      cases called : c.exec op with
      | none => rfl
      | some c' => exact ih (ok.exec called) (evolves_exec ok addressed called).addressed

/-- The table answers every lookup as the book does. -/
structure AnswersAs (c : SContacts) (b : AddressBook) : Prop where
  peer : ∀ peer, (c.findPeer peer).map c.card = b.card peer
  address : ∀ ip port, (c.findIpPort ip port).map (fun p => (c.info p).peer) =
    b.findIpPort ip port
  name : ∀ name, (c.findName name).map (fun p => (c.info p).peer) = b.named name
  socket : ∀ socket, (c.findFromSocket socket).map (fun p => (c.info p).peer) =
    b.connected socket

theorem Consistent.answersAs (ok : Consistent c) (addressed : Addressed c) :
    c.AnswersAs c.book where
  peer _ := rfl
  address ip port := (ok.book_findIpPort addressed ip port).symm
  name _ := rfl
  socket _ := rfl

/-- From the empty table on, the table goes with the book: after the calls of a run
it is the book that these calls make, it answers as that book does, the next call goes
through when the book's does, and `add` returns the same id. -/
theorem table_is_book {ops : List Op} (run : Run (Det exec) empty ops c) :
    Run (Det AddressBook.exec) AddressBook.empty (empty.calls ops) c.book ∧
      c.AnswersAs c.book ∧
      (∀ op, (c.exec op).map book = c.book.exec (c.call op)) ∧
      ∀ e socket ip port name,
        (c.add e socket ip port name).map (fun made => ((made.2.info made.1).peer, made.2.book)) =
          c.book.add e.now socket ip port name := by
  obtain ⟨ok, addressed⟩ := addressed_of_run run
  refine ⟨?_, ok.answersAs addressed, ok.book_exec addressed, ok.book_add addressed⟩
  have same := book_run consistent_empty addressed_empty ops
  rw [run_det_iff.mp run, Option.map_some] at same
  exact run_det_iff.mpr same.symm

/-- A contact is renamed into the memory its old record leaves, another one has its
name taken over, and both are idle when the third one comes. -/
theorem table_is_book_renamed_and_evicted :
    ∃ c, Run (Det exec) empty
      [.add ⟨10, 0, []⟩ 5 1 1 [97], .add ⟨11, 1, []⟩ (-1) 2 1 [98],
       .updateName ⟨12, 0, []⟩ 0 [98], .add ⟨8000, 0, []⟩ 5 3 1 [99]] c ∧
      c.AnswersAs c.book ∧ c.book.named [99] = some 3 := by
  obtain ⟨c, run, named⟩ : ∃ c, Run (Det exec) empty
      [.add ⟨10, 0, []⟩ 5 1 1 [97], .add ⟨11, 1, []⟩ (-1) 2 1 [98],
       .updateName ⟨12, 0, []⟩ 0 [98], .add ⟨8000, 0, []⟩ 5 3 1 [99]] c ∧
      c.book.named [99] = some 3 :=
    ⟨_, run_det_iff.mpr rfl, by decide +kernel⟩
  exact ⟨c, run, (table_is_book run).2.1, named⟩

/-- Where the allocator puts the records does not show. -/
theorem book_of_calls {ops ops' : List Op} (run : Run (Det exec) empty ops c)
    (run' : Run (Det exec) empty ops' d) (same : empty.calls ops = empty.calls ops') :
    c.book = d.book := by
  have books := book_run consistent_empty addressed_empty ops
  rw [same, ← book_run consistent_empty addressed_empty ops', run_det_iff.mp run,
    run_det_iff.mp run'] at books
  exact Option.some.inj books

end SContacts

end LibSBus
