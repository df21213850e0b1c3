import LibSBus.SBus.Changes

/-!
Who a message is from. `add` looks the bus's own name up where the sender's name
was meant: it is given `name` next to an unused `peerName`. Once some contact
carries the bus's name, every sender without a contact of its own address is
taken for that contact. Without that, an id belongs to one address for good,
also across evictions and across the records `processSMsg` files from a pointer
that `updateSocket` replaced.
-/

namespace LibSBus

open Lib

namespace SContacts

variable {ok : IP → Port → SocketType → Prop} {c c' d : SContacts} {gone : Set Ptr} {p q x : Ptr}
  {e : CallEnv} {r : SPeerInfo} {A : Int → IP × Port}

/-- The ids issued so far belong to the addresses `A` gives: every record, also
one that is no contact any more, carries an issued id and its address, and a
record found under its address is found under its id. -/
structure Assigned (A : Int → IP × Port) (c : SContacts) : Prop where
  sound : IndexesSound c c.heap.live
  issued : ∀ p, ((c.info p).peer : Int) ≤ c.lastPeerId
  address : ∀ p, A (c.info p).peer = ((c.info p).ip, (c.info p).port)
  paired : ∀ p, Index.Filed SPeerInfo.getAddr c.heap.cell c.addr2peer p →
    Index.Filed SPeerInfo.peer c.heap.cell c.peers p

theorem assigned_empty : Assigned (fun _ => (0, 0)) empty where
  sound := indexesSound_empty
  issued p := Int.le_refl 0
  address p := rfl
  paired p filed := by simp [Index.Filed, empty] at filed

/-- Records with one id have one address. -/
theorem Assigned.address_eq (ok : Assigned A c) (same : (c.info p).peer = (c.info q).peer) :
    (c.info p).ip = (c.info q).ip ∧ (c.info p).port = (c.info q).port := by
  have equal := ok.address p
  rw [same, ok.address q, Prod.mk.injEq] at equal
  exact ⟨equal.1.symm, equal.2.symm⟩

theorem Assigned.getAddr_eq (ok : Assigned A c) (same : (c.info p).peer = (c.info q).peer) :
    (c.info p).getAddr = (c.info q).getAddr := by
  obtain ⟨ip_eq, port_eq⟩ := ok.address_eq same
  rw [SPeerInfo.getAddr, SPeerInfo.getAddr, ip_eq, port_eq]

theorem Assigned.paired_removed (ok : Assigned A c) (removed : Removed c d gone)
    (filed : Index.Filed SPeerInfo.getAddr d.heap.cell d.addr2peer x) :
    Index.Filed SPeerInfo.peer d.heap.cell d.peers x := by
  rw [removed.cell] at filed ⊢
  obtain ⟨old, kept⟩ := removed.addrs.filed_iff.mp filed
  exact removed.peers.filed_iff.mpr
    ⟨ok.paired x old, fun y hy same => kept y hy (ok.getAddr_eq same)⟩

/-- Filing a record keeps the pairing as long as records with its id have its
address. -/
theorem paired_file
    (paired : ∀ x, Index.Filed SPeerInfo.getAddr c.heap.cell c.addr2peer x →
      Index.Filed SPeerInfo.peer c.heap.cell c.peers x)
    (own : ∀ x, (c.info x).peer = r.peer → (c.info x).getAddr = r.getAddr)
    (filed : Index.Filed SPeerInfo.getAddr (c.file e r).2.heap.cell (c.file e r).2.addr2peer x) :
    Index.Filed SPeerInfo.peer (c.file e r).2.heap.cell (c.file e r).2.peers x := by
  rw [file_cell] at filed ⊢
  by_cases new : x = (c.file e r).1
  · subst new
    exact Index.filed_file
  · obtain ⟨apart, old⟩ := (Index.filed_file_iff new).mp filed
    exact (Index.filed_file_iff new).mpr ⟨fun same => apart (own x same), paired x old⟩

/-- A record with the id and the address of another one assigns nothing new. -/
theorem Assigned.refile (assigned : Assigned A c) (same : SameContact r (c.info p)) (now : Int)
    (e : CallEnv) (sound : IndexesSound ((c.erase now p).file e r).2
      ((c.erase now p).file e r).2.heap.live) : Assigned A ((c.erase now p).file e r).2 where
  sound := sound
  issued := by
    refine info_file_keeps (c := c.erase now p) (P := fun r => (r.peer : Int) ≤ c.lastPeerId)
      assigned.issued ?_
    rw [same.1]
    exact assigned.issued p
  address := by
    refine info_file_keeps (c := c.erase now p) (P := fun r => A r.peer = (r.ip, r.port))
      assigned.address ?_
    rw [same.1, same.2.1, same.2.2]
    exact assigned.address p
  paired x := by
    refine paired_file (fun x => assigned.paired_removed (removed_erase c now p)) ?_
    intro x id
    have equal := assigned.getAddr_eq (id.trans same.1)
    rw [SPeerInfo.getAddr.eq_def r, same.2.1, same.2.2]
    exact equal

/-- A new contact has an id that no record shows, and gives it its address. -/
theorem Assigned.enter (assigned : Assigned A c) (own : r.peer = c.lastPeerId + 1) (e : CallEnv)
    (sound : IndexesSound ((c.doCleanUp e.now).bump.file e r).2
      ((c.doCleanUp e.now).bump.file e r).2.heap.live) :
    Assigned (Function.update A r.peer (r.ip, r.port)) ((c.doCleanUp e.now).bump.file e r).2 := by
  have old : ∀ x, (c.doCleanUp e.now).bump.info x = c.info x := fun x =>
    info_bump c e.now _ assigned.sound
  have next : ((c.doCleanUp e.now).bump.file e r).2.lastPeerId = c.lastPeerId + 1 :=
    bump_lastPeerId
  have fresh : ∀ x, (c.info x).peer ≠ r.peer := by
    intro x id
    have bound := assigned.issued x
    rw [id, own] at bound
    exact absurd bound (Int.not_le.mpr (Int.lt_succ _))
  refine ⟨sound, ?_, ?_, fun x => ?_⟩
  · rw [next]
    refine info_file_keeps (P := fun r => (r.peer : Int) ≤ c.lastPeerId + 1) (fun x => ?_)
      (le_of_eq own)
    rw [old]
    exact (assigned.issued x).trans (Int.le_of_lt (Int.lt_succ _))
  · refine info_file_keeps
      (P := fun r' => Function.update A r.peer (r.ip, r.port) r'.peer = (r'.ip, r'.port))
      (fun x => ?_) (Function.update_self _ _ _)
    rw [old, Function.update_of_ne (fresh x)]
    exact assigned.address x
  · refine paired_file (fun x => assigned.paired_removed (removed_bump assigned.sound e.now)) ?_
    intro x id
    rw [old] at id
    exact absurd id (fresh x)

/-- A change assigns at most one more id, the next one. -/
theorem Assigned.change (assigned : Assigned A c) (change : Change ok c c') :
    c.lastPeerId ≤ c'.lastPeerId ∧ ∃ A', Assigned A' c' ∧ ∀ k ≤ c.lastPeerId, A' k = A k := by
  have sound := assigned.sound.change change
  cases change with
  | stamp now p =>
      exact ⟨le_rfl, A, ⟨sound, assigned.issued, assigned.address, assigned.paired⟩,
        fun _ _ => rfl⟩
  | refile now e p r same held =>
      exact ⟨le_rfl, A, assigned.refile same now e sound, fun _ _ => rfl⟩
  | enter e r own missing new =>
      have next : ((c.doCleanUp e.now).bump.file e r).2.lastPeerId = c.lastPeerId + 1 :=
        bump_lastPeerId
      refine ⟨next ▸ Int.le_of_lt (Int.lt_succ _), _, assigned.enter own e sound,
        fun k bound => Function.update_of_ne (fun same => ?_) _ _⟩
      rw [same, own] at bound
      exact absurd bound (Int.not_le.mpr (Int.lt_succ _))

theorem Assigned.changes (assigned : Assigned A c) (changes : Changes ok c c') :
    c.lastPeerId ≤ c'.lastPeerId ∧ ∃ A', Assigned A' c' ∧ ∀ k ≤ c.lastPeerId, A' k = A k := by
  induction changes with
  | refl => exact ⟨le_rfl, A, assigned, fun _ _ => rfl⟩
  | tail _ last ih =>
      obtain ⟨grew, A', assigned', kept⟩ := ih
      obtain ⟨grew', A'', assigned'', kept'⟩ := assigned'.change last
      exact ⟨grew.trans grew', A'', assigned'', fun k bound =>
        (kept' k (bound.trans grew)).trans (kept k bound)⟩

/-- The address the contacts have under an id. -/
def storedAddress (c : SContacts) (peer : SBusPeer) : Option (IP × Port) :=
  (c.findPeer peer).map fun p => ((c.info p).ip, (c.info p).port)

theorem Assigned.storedAddress_eq (assigned : Assigned A c) {peer : SBusPeer}
    (known : c.findPeer peer ≠ none) : c.storedAddress peer = some (A peer) := by
  obtain ⟨p, found⟩ := Option.ne_none_iff_exists'.mp known
  have own : (c.info p).peer = peer := (assigned.sound.peers peer p found).2
  rw [storedAddress, found, Option.map_some, ← assigned.address p, own]

/-- An update keeps every id known. -/
theorem findPeer_replace {now : Int} {peer : SBusPeer} (own : r.peer = (c.info p).peer)
    (known : c.findPeer peer ≠ none) : ((c.erase now p).file e r).2.findPeer peer ≠ none := by
  obtain ⟨x, found⟩ := Option.ne_none_iff_exists'.mp known
  by_cases same : peer = r.peer
  · exact Option.ne_none_iff_exists'.mpr
      ⟨_, Index.lookup_insert_eq_some.mpr (.inl ⟨same, rfl⟩)⟩
  · exact Option.ne_none_iff_exists'.mpr ⟨x, Index.lookup_insert_eq_some.mpr
      (.inr ⟨same, Index.lookup_erase_eq_some.mpr ⟨own ▸ same, found⟩⟩)⟩

end SContacts

namespace SBus

open SContacts

variable {b b' : SBus} {env : StepEnv} {smsg : SMsg} {p : Ptr} {id peer k : SBusPeer}
  {actions : List Action}

theorem handle_peer (b : SBus) (env : StepEnv) (p : Ptr) (peer : SBusPeer)
    (answered : smsg.msgtag ≠ sbusFind) :
    (b.handle env smsg p peer).1 = peer := by
  unfold handle
  rw [if_neg answered]
  split
  case isTrue system =>
    split
    case isTrue manameis =>
      dsimp only
      split <;> rfl
    case isFalse other => split <;> rfl
  case isFalse user => rfl

/-- `processSMsg` returns the id of the sender, unless the message is a search for a
name. -/
theorem processSMsg_peer (data : smsg.error = false) (other : ¬ b.isSelf smsg)
    (answered : smsg.msgtag ≠ sbusFind) (call : b.processSMsg env smsg = some (id, b', actions)) :
    b.senderId env.lookup smsg = some id := by
  obtain ⟨p, d, found, handled⟩ := processSMsg_eq_some data other call
  have same := handle_peer (d.touch env.lookup.now p) env p (d.scontacts.info p).peer answered
  rw [handled] at same
  rw [senderId, found]
  exact congrArg some same.symm

/-- What a message asks for forgets no id. -/
theorem handle_findPeer (sound : IndexesSound b.scontacts b.scontacts.heap.live)
    (own : (b.scontacts.info p).peer = peer)
    (call : b.handle env smsg p peer = (id, b', actions))
    (known : b.scontacts.findPeer k ≠ none) : b'.scontacts.findPeer k ≠ none :=
  handle_keeps (I := fun c => c.findPeer k ≠ none) (fun _ _ _ known => known)
    (fun _ _ _ _ _ same _ known => findPeer_replace same.1 known) sound own call known

/-- A multicast message is taken to be from a contact with its address, unless
only the bus's own name could tell. -/
theorem sender_of_multicast {A : Int → IP × Port} {e : CallEnv} {d : SBus}
    (assigned : Assigned A b.scontacts) (shared : smsg.socket = b.mcsock)
    (unheld : b.scontacts.findFromSocket smsg.socket = none)
    (told : b.scontacts.findIpPort smsg.ip smsg.port = none →
      b.scontacts.findName b.name = none)
    (found : b.sender e smsg = some (p, d)) :
    d.scontacts.findPeer (d.scontacts.info p).peer ≠ none ∧
      (d.scontacts.info p).ip = smsg.ip ∧ (d.scontacts.info p).port = smsg.port := by
  rcases sender_cases found with ⟨held, _⟩ | ⟨_, addressed, rfl⟩ | ⟨_, missing, named, _⟩ |
    ⟨_, missing, _, _, rfl, rfl⟩
  · rw [unheld] at held
    cases held
  · rw [if_neg (not_not.mpr shared)]
    have address := findIpPort_address assigned.sound addressed
    have filed : Index.Filed SPeerInfo.getAddr b.scontacts.heap.cell b.scontacts.addr2peer p := by
      rw [Index.Filed, SPeerInfo.getAddr, address.1, address.2]
      exact addressed
    exact ⟨Option.ne_none_iff_exists'.mpr ⟨p, assigned.paired p filed⟩, address⟩
  · rw [told missing] at named
    cases named
  · rw [info_file_self]
    exact ⟨Option.ne_none_iff_exists'.mpr
      ⟨_, Index.lookup_insert_eq_some.mpr (.inl ⟨rfl, rfl⟩)⟩, rfl, rfl⟩

end SBus

/-- What became of a message: the id it was given, and the address the contacts
had under that id when it was done. -/
structure Receipt where
  smsg : SMsg
  peer : SBusPeer
  stored : Option (IP × Port)

/-- One bus with the messages it has processed. -/
structure Receiver where
  bus : SBus
  receipts : List Receipt

namespace Receiver

open SContacts

inductive Event
  | setName (name : CString)
  | message (env : StepEnv) (smsg : SMsg)

def start (serverIP : IP) (serverPort : Port) (mcsock : SocketType) : Receiver :=
  { bus := SBus.init serverIP serverPort mcsock, receipts := [] }

/-- Messages are neither errors nor the bus's own. A new connection does not get
the descriptor of the multicast socket, which is open. -/
def step (s : Receiver) : Event → Option Receiver
  | .setName name => some { s with bus := (s.bus.setName name).1 }
  | .message env smsg =>
      if smsg.error ∨ s.bus.isSelf smsg ∨ env.reply.connect = s.bus.mcsock then none
      else do
        let peer ← s.bus.senderId env.lookup smsg
        let (_, bus, _) ← s.bus.processSMsg env smsg
        some { bus, receipts := s.receipts ++ [⟨smsg, peer, bus.scontacts.storedAddress peer⟩] }

/-- Multicast messages from different addresses were given different ids, each
that of a contact with the address of the message. -/
def KeepsApart (s : Receiver) : Prop :=
  (∀ x ∈ s.receipts, x.smsg.socket = s.bus.mcsock →
    x.stored = some (x.smsg.ip, x.smsg.port)) ∧
  ∀ x ∈ s.receipts, ∀ y ∈ s.receipts, x.smsg.socket = s.bus.mcsock →
    y.smsg.socket = s.bus.mcsock → (x.smsg.ip, x.smsg.port) ≠ (y.smsg.ip, y.smsg.port) →
    x.peer ≠ y.peer

instance (s : Receiver) : Decidable s.KeepsApart := inferInstanceAs (Decidable (_ ∧ _))

/-- Two multicast senders are taken for one. -/
theorem senders_collapse :
    ¬ ∀ serverIP serverPort mcsock events, mcsock ≠ invalidSocket →
      Always (Det step) KeepsApart (start serverIP serverPort mcsock) events := by
  intro always
  obtain ⟨s, run, collapsed⟩ : ∃ s, Run (Det step) (start 1 10 4)
      [.message ⟨⟨10, 0, []⟩, ⟨10, 1, []⟩, ⟨⟨10, 2, []⟩, -1, 0⟩⟩ ⟨1, 2, 20, 4, [], false⟩,
       .message ⟨⟨11, 1, []⟩, ⟨11, 1, []⟩, ⟨⟨11, 2, []⟩, -1, 0⟩⟩ ⟨1, 3, 30, 4, [], false⟩] s ∧
      ¬ s.KeepsApart :=
    ⟨_, run_det_iff.mpr rfl, by decide +kernel⟩
  exact collapsed (always 1 10 4 _ (by decide) _ List.prefix_rfl s run)

/-- When a message keeps the senders apart: unless some contact has its address,
none is found by the bus's own name. -/
def Distinguishes (s : Receiver) : Event → Prop
  | .setName _ => True
  | .message _ smsg =>
      smsg.socket = s.bus.mcsock → s.bus.scontacts.findIpPort smsg.ip smsg.port = none →
        s.bus.scontacts.findName s.bus.name = none

instance (s : Receiver) (event : Event) : Decidable (s.Distinguishes event) := by
  cases event <;> unfold Distinguishes <;> infer_instance

/-- No record shows the multicast socket, and the multicast messages were given
ids that are assigned to their addresses. -/
structure Apart (mcsock : SocketType) (s : Receiver) : Prop where
  valid : mcsock ≠ invalidSocket
  mcsock_eq : s.bus.mcsock = mcsock
  unheld : Shows (fun _ _ socket => socket ≠ mcsock) s.bus.scontacts
  assigned : ∃ A, Assigned A s.bus.scontacts ∧
    ∀ x ∈ s.receipts, x.smsg.socket = mcsock →
      (x.peer : Int) ≤ s.bus.scontacts.lastPeerId ∧
        A x.peer = (x.smsg.ip, x.smsg.port) ∧ x.stored = some (x.smsg.ip, x.smsg.port)

theorem Apart.keepsApart {mcsock : SocketType} {s : Receiver} (apart : s.Apart mcsock) :
    s.KeepsApart := by
  obtain ⟨_, rfl, _, A, _, given⟩ := apart
  refine ⟨fun x mem shared => (given x mem shared).2.2, ?_⟩
  intro x memx y memy sharedx sharedy different same
  rw [← (given x memx sharedx).2.1, same, (given y memy sharedy).2.1] at different
  exact different rfl

theorem apart_start {serverIP : IP} {serverPort : Port} {mcsock : SocketType}
    (valid : mcsock ≠ invalidSocket) : (start serverIP serverPort mcsock).Apart mcsock where
  valid := valid
  mcsock_eq := rfl
  unheld _ := valid.symm
  assigned := ⟨_, assigned_empty, by simp [start]⟩

theorem Apart.step {mcsock : SocketType} {s t : Receiver} {event : Event}
    (apart : s.Apart mcsock) (told : s.Distinguishes event) (taken : s.step event = some t) :
    t.Apart mcsock := by
  obtain ⟨valid, rfl, unheld, A, assigned, given⟩ := apart
  cases event with
  | setName name =>
      obtain rfl := Option.some.inj taken
      exact ⟨valid, rfl, unheld, A, assigned, given⟩
  | message env smsg =>
      obtain ⟨accepted, taken⟩ := Option.ite_none_left_eq_some.mp taken
      rw [not_or, not_or, Bool.not_eq_true] at accepted
      obtain ⟨data, other, apart⟩ := accepted
      obtain ⟨peer, given_id, taken⟩ := Option.bind_eq_some_iff.mp taken
      obtain ⟨⟨id, bus, actions⟩, processed, taken⟩ := Option.bind_eq_some_iff.mp taken
      obtain rfl := Option.some.inj taken
      obtain ⟨p, d, found, handled⟩ := SBus.processSMsg_eq_some data other processed
      have own : (d.scontacts.info p).peer = peer := by
        rw [SBus.senderId, found] at given_id
        exact Option.some.inj given_id
      rw [own] at handled
      -- the table once the sender is found, and once the message is done
      obtain ⟨first, same⟩ := SBus.sender_changes
        (fun _ _ socket => socket ≠ s.bus.mcsock) assigned.sound valid.symm (·) found
      obtain ⟨second, same'⟩ := SBus.handle_changes
        (fun _ _ socket => socket ≠ s.bus.mcsock) (fun _ _ _ _ => apart) handled
      have stamp : Change (fun _ _ socket => socket ≠ s.bus.mcsock) d.scontacts
          (d.touch env.lookup.now p).scontacts := .stamp d.scontacts env.lookup.now p
      have stamped := Relation.ReflTransGen.head stamp second
      obtain ⟨grew, A₁, assigned₁, kept⟩ := assigned.changes first
      obtain ⟨grew', A₂, assigned₂, kept'⟩ := assigned₁.changes stamped
      have mcsock_eq : bus.mcsock = s.bus.mcsock := by rw [same', SBus.touch, same]
      refine ⟨valid, mcsock_eq, unheld.changes assigned.sound (first.trans stamped), A₂,
        assigned₂, fun x mem shared => ?_⟩
      rcases List.mem_append.mp mem with old | new
      · obtain ⟨issued, belongs, stored⟩ := given x old shared
        refine ⟨issued.trans (grew.trans grew'), ?_, stored⟩
        rw [kept' _ (issued.trans grew), kept _ issued, belongs]
      · obtain rfl := List.mem_singleton.mp new
        obtain ⟨known, ip, port⟩ := SBus.sender_of_multicast assigned shared
          (shared ▸ findFromSocket_eq_none assigned.sound unheld) (told shared) found
        have issued := assigned₁.issued p
        have belongs := assigned₁.address p
        rw [own] at known issued belongs
        rw [ip, port] at belongs
        have belongs' : A₂ peer = (smsg.ip, smsg.port) := (kept' peer issued).trans belongs
        refine ⟨issued.trans grew', belongs', ?_⟩
        rw [← belongs']
        have sound := assigned₁.sound.changes (.single stamp)
        exact assigned₂.storedAddress_eq (SBus.handle_findPeer sound own handled known)

/-- As long as every multicast message from an unknown address comes when no
contact carries the bus's own name, multicast senders are told apart by their
ids in every state, and each id leads to the address of its messages. -/
theorem senders_kept_apart (serverIP : IP) (serverPort : Port) (mcsock : SocketType)
    (events : List Event) (valid : mcsock ≠ invalidSocket)
    (told : EachStep (Det step) Distinguishes (start serverIP serverPort mcsock) events) :
    Always (Det step) KeepsApart (start serverIP serverPort mcsock) events :=
  .of_invariant (apart_start valid) told (fun _ _ _ apart told taken => apart.step told taken)
    fun _ => Apart.keepsApart

/-- Two senders, one of them heard again after a rename, and a `setName`. -/
theorem senders_kept_apart_renamed :
    Always (Det step) KeepsApart (start 1 10 4)
      [.message ⟨⟨10, 0, []⟩, ⟨10, 1, []⟩, ⟨⟨10, 2, []⟩, -1, 0⟩⟩ ⟨-1, 2, 20, 4, [97], false⟩,
       .message ⟨⟨11, 2, []⟩, ⟨11, 3, []⟩, ⟨⟨11, 4, []⟩, -1, 0⟩⟩ ⟨1, 3, 30, 4, [98], false⟩,
       .setName [99],
       .message ⟨⟨12, 4, []⟩, ⟨12, 5, []⟩, ⟨⟨12, 6, []⟩, -1, 0⟩⟩ ⟨1, 2, 20, 4, [], false⟩] :=
  senders_kept_apart 1 10 4 _ (by decide) (by decide +kernel)

end Receiver

end LibSBus
