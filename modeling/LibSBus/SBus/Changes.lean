import Mathlib.Logic.Relation
import LibSBus.SBus
import LibSBus.SContacts.Indexes

/-!
What processing a message does to the contacts table, said once. It is a
sequence of changes: a stamp, a record filed again, or a new contact. The record
filed again may be one that is no longer a contact, since `processSMsg` keeps
the pointer that `updateSocket` replaced. What every record shows about its
address and socket is kept by any such sequence, and so is that the maps lead to
live records.
-/

namespace LibSBus

open Lib

namespace SContacts

variable {ok : IP → Port → SocketType → Prop} {c c' : SContacts} {p : Ptr}

/-- One change. A socket a record did not have before comes with the address it
is recorded for. -/
inductive Change (ok : IP → Port → SocketType → Prop) : SContacts → SContacts → Prop
  | stamp (c : SContacts) (now : Int) (p : Ptr) : Change ok c (c.touch now p)
  | refile (c : SContacts) (now : Int) (e : CallEnv) (p : Ptr) (r : SPeerInfo)
      (same : SameContact r (c.info p))
      (held : r.socket = (c.info p).socket ∨ ok r.ip r.port r.socket) :
      Change ok c ((c.erase now p).file e r).2
  | enter (c : SContacts) (e : CallEnv) (r : SPeerInfo) (own : r.peer = c.lastPeerId + 1)
      (missing : c.findIpPort r.ip r.port = none) (new : ok r.ip r.port r.socket) :
      Change ok c ((c.doCleanUp e.now).bump.file e r).2

abbrev Changes (ok : IP → Port → SocketType → Prop) : SContacts → SContacts → Prop :=
  Relation.ReflTransGen (Change ok)

/-- What every change keeps is kept by all of them. -/
theorem Changes.keep {I : SContacts → Prop} (changes : Changes ok c c') (start : I c)
    (one : ∀ c c', I c → Change ok c c' → I c') : I c' := by
  induction changes with
  | refl => exact start
  | tail _ last ih => exact one _ _ ih last

theorem IndexesSound.refile (sound : IndexesSound c c.heap.live) (now : Int) (e : CallEnv)
    (p : Ptr) (r : SPeerInfo) :
    IndexesSound ((c.erase now p).file e r).2 ((c.erase now p).file e r).2.heap.live := by
  have left := sound.removed (removed_erase c now p)
  have erased : (c.heap.live : Set Ptr) \ {p} = (c.erase now p).heap.live := by
    rw [erase, Heap.delete, Finset.coe_erase]
    rfl
  rw [erased] at left
  rw [file_live, Finset.coe_insert]
  exact left.file file_fresh

theorem IndexesSound.enter (sound : IndexesSound c c.heap.live) (now : Int) (e : CallEnv)
    (r : SPeerInfo) :
    IndexesSound ((c.doCleanUp now).bump.file e r).2
      ((c.doCleanUp now).bump.file e r).2.heap.live := by
  have removed := removed_bump sound now
  have left := sound.removed removed
  have sub : (c.heap.live : Set Ptr) \ c.victims now ⊆
      (c.doCleanUp now).bump.heap.live := fun x hx => (removed.live x hx.2).mpr hx.1
  rw [file_live, Finset.coe_insert]
  exact (left.mono sub).file file_fresh

theorem IndexesSound.change (sound : IndexesSound c c.heap.live) (change : Change ok c c') :
    IndexesSound c' c'.heap.live := by
  cases change with
  | stamp now p => exact ⟨sound.peers, sound.addrs, sound.names, sound.sockets⟩
  | refile now e p r same held => exact sound.refile now e p r
  | enter e r own missing new => exact sound.enter e.now e r

theorem IndexesSound.changes (sound : IndexesSound c c.heap.live) (changes : Changes ok c c') :
    IndexesSound c' c'.heap.live :=
  changes.keep (I := fun c => IndexesSound c c.heap.live) sound fun _ _ => IndexesSound.change

/-- Each record shows an address and a socket that `ok` allows. -/
def Shows (ok : IP → Port → SocketType → Prop) (c : SContacts) : Prop :=
  ∀ p, ok (c.info p).ip (c.info p).port (c.info p).socket

theorem info_bump (c : SContacts) (now : Int) (valid : Set Ptr) (sound : IndexesSound c valid) :
    (c.doCleanUp now).bump.info p = c.info p := by
  rw [info, (removed_bump sound now).cell]

theorem Shows.change (shows_ : Shows ok c) (sound : IndexesSound c c.heap.live)
    (change : Change ok c c') : Shows ok c' := by
  intro x
  cases change with
  | stamp now p => exact shows_ x
  | refile now e p r same held =>
      have new : ok r.ip r.port r.socket := by
        rcases held with old | fine
        · rw [same.2.1, same.2.2, old]
          exact shows_ p
        · exact fine
      exact info_file_keeps (c := c.erase now p) (P := fun r => ok r.ip r.port r.socket)
        shows_ new x
  | enter e r own missing fine =>
      refine info_file_keeps (P := fun r => ok r.ip r.port r.socket) (fun x => ?_) fine x
      rw [info_bump c e.now _ sound]
      exact shows_ x

theorem Shows.changes (shows_ : Shows ok c) (sound : IndexesSound c c.heap.live)
    (changes : Changes ok c c') : Shows ok c' :=
  (changes.keep (I := fun c => IndexesSound c c.heap.live ∧ Shows ok c) ⟨sound, shows_⟩
    fun _ _ both change => ⟨both.1.change change, both.2.change both.1 change⟩).2

/-- No record shows a negative id, and the counter is not negative. -/
structure IdsCounted (c : SContacts) : Prop where
  counted : 0 ≤ c.lastPeerId
  ids : ∀ p, (0 : Int) ≤ (c.info p).peer

theorem idsCounted_empty : IdsCounted empty where
  counted := Int.le_refl 0
  ids _ := Int.le_refl 0

theorem IdsCounted.change (counted : IdsCounted c) (sound : IndexesSound c c.heap.live)
    (change : Change ok c c') : IdsCounted c' := by
  cases change with
  | stamp now p => exact ⟨counted.counted, counted.ids⟩
  | refile now e p r same held =>
      have new : (0 : Int) ≤ r.peer := same.1 ▸ counted.ids p
      exact ⟨counted.counted, info_file_keeps (c := c.erase now p)
        (P := fun r => (0 : Int) ≤ r.peer) counted.ids new⟩
  | enter e r own missing fine =>
      have bound := counted.counted
      have next : ((c.doCleanUp e.now).bump.file e r).2.lastPeerId = c.lastPeerId + 1 :=
        bump_lastPeerId
      have new : (0 : Int) ≤ r.peer := by
        rw [own]
        omega
      refine ⟨by omega, info_file_keeps (P := fun r => (0 : Int) ≤ r.peer) (fun x => ?_) new⟩
      rw [info_bump c e.now _ sound]
      exact counted.ids x

theorem IdsCounted.changes (counted : IdsCounted c) (sound : IndexesSound c c.heap.live)
    (changes : Changes ok c c') : IdsCounted c' :=
  (changes.keep (I := fun c => IndexesSound c c.heap.live ∧ IdsCounted c) ⟨sound, counted⟩
    fun _ _ both change => ⟨both.1.change change, both.2.change both.1 change⟩).2

/-- The record an address is found under has that address. -/
theorem findIpPort_address (sound : IndexesSound c c.heap.live) {ip : IP} {port : Port}
    (found : c.findIpPort ip port = some p) : (c.info p).ip = ip ∧ (c.info p).port = port :=
  ipnport2addr_inj.mp (sound.addrs _ p found).2

/-- No socket is found that no record shows. -/
theorem findFromSocket_eq_none {s : SocketType} (sound : IndexesSound c c.heap.live)
    (nobody : Shows (fun _ _ socket => socket ≠ s) c) : c.findFromSocket s = none := by
  rw [Option.eq_none_iff_forall_ne_some]
  intro p entry
  exact nobody p (sound.sockets s p entry).2

end SContacts

namespace SBus

open SContacts

variable {ok : IP → Port → SocketType → Prop} {b b' : SBus} {p : Ptr} {smsg : SMsg}
  {e : CallEnv} {actions : List Action} {peer : SBusPeer}

/-- The socket `processSMsg` records for the sender of a message. -/
def recordedSocket (b : SBus) (smsg : SMsg) : SocketType :=
  if smsg.socket ≠ b.mcsock then smsg.socket else invalidSocket

/-- The record a new contact gets. -/
def newcomer (b : SBus) (smsg : SMsg) : SPeerInfo :=
  { peer := b.scontacts.lastPeerId + 1, ip := smsg.ip, port := smsg.port,
    socket := b.recordedSocket smsg, name := b.name }

/-- The contact a message is from: found by its socket; found by its address,
where a socket of its own is recorded; found by the bus's own name; or new. -/
theorem sender_cases (call : b.sender e smsg = some (p, b')) :
    (b.scontacts.findFromSocket smsg.socket = some p ∧ b' = b) ∨
    (b.scontacts.findFromSocket smsg.socket = none ∧
      b.scontacts.findIpPort smsg.ip smsg.port = some p ∧
      b' = if smsg.socket ≠ b.mcsock then
        { b with scontacts := (b.scontacts.updateSocket e p smsg.socket).2 } else b) ∨
    (b.scontacts.findFromSocket smsg.socket = none ∧
      b.scontacts.findIpPort smsg.ip smsg.port = none ∧
      b.scontacts.findName b.name = some p ∧ b' = b) ∨
    (b.scontacts.findFromSocket smsg.socket = none ∧
      b.scontacts.findIpPort smsg.ip smsg.port = none ∧
      b.scontacts.findName b.name = none ∧ b.scontacts.lastPeerId ≠ intMax ∧
      p = ((b.scontacts.doCleanUp e.now).bump.file e (b.newcomer smsg)).1 ∧
      b' = { b with
        scontacts := ((b.scontacts.doCleanUp e.now).bump.file e (b.newcomer smsg)).2 }) := by
  unfold sender at call
  split at call
  case h_1 q found =>
    obtain ⟨rfl, rfl⟩ := Prod.mk.inj (Option.some.inj call)
    exact .inl ⟨found, rfl⟩
  case h_2 unheld =>
    split at call
    case h_1 missing =>
      obtain ⟨⟨q, d⟩, added, same⟩ := Option.map_eq_some_iff.mp call
      obtain ⟨rfl, rfl⟩ := Prod.mk.inj same
      rcases add_eq_some added with ⟨rfl, found⟩ | ⟨rfl, _, named⟩ | ⟨_, unnamed, more, filed⟩
      · rw [missing] at found
        cases found
      · exact .inr (.inr (.inl ⟨unheld, missing, named, rfl⟩))
      · rw [show (b.scontacts.doCleanUp e.now).bump.lastPeerId = b.scontacts.lastPeerId + 1 from
          bump_lastPeerId] at filed
        obtain ⟨rfl, rfl⟩ := Prod.mk.inj filed
        exact .inr (.inr (.inr ⟨unheld, missing, unnamed, more, rfl, rfl⟩))
    case h_2 q found =>
      refine .inr (.inl ?_)
      split at call
      case isTrue own =>
        obtain ⟨rfl, rfl⟩ := Prod.mk.inj (Option.some.inj call)
        exact ⟨unheld, found, (if_pos own).symm⟩
      case isFalse shared =>
        obtain ⟨rfl, rfl⟩ := Prod.mk.inj (Option.some.inj call)
        exact ⟨unheld, found, (if_neg shared).symm⟩

theorem sender_name (call : b.sender e smsg = some (p, b')) : b'.name = b.name := by
  rcases sender_cases call with ⟨_, rfl⟩ | ⟨_, _, rfl⟩ | ⟨_, _, _, rfl⟩ |
    ⟨_, _, _, _, _, rfl⟩
  · rfl
  · split <;> rfl
  · rfl
  · rfl

theorem sender_changes (ok : IP → Port → SocketType → Prop)
    (sound : IndexesSound b.scontacts b.scontacts.heap.live)
    (unconnected : ok smsg.ip smsg.port invalidSocket)
    (connected : smsg.socket ≠ b.mcsock → ok smsg.ip smsg.port smsg.socket)
    (call : b.sender e smsg = some (p, b')) :
    Changes ok b.scontacts b'.scontacts ∧ b' = { b with scontacts := b'.scontacts } := by
  rcases sender_cases call with ⟨_, rfl⟩ | ⟨_, found, rfl⟩ | ⟨_, _, _, rfl⟩ |
    ⟨_, missing, _, _, rfl, rfl⟩
  · exact ⟨.refl, rfl⟩
  · split
    case isTrue own =>
      obtain ⟨ip, port⟩ := findIpPort_address sound found
      refine ⟨.single (.refile _ e.now e p _ ⟨rfl, rfl, rfl⟩ (.inr ?_)), rfl⟩
      rw [ip, port]
      exact connected own
    case isFalse shared => exact ⟨.refl, rfl⟩
  · exact ⟨.refl, rfl⟩
  · refine ⟨.single (.enter _ e (b.newcomer smsg) rfl missing ?_), rfl⟩
    unfold newcomer recordedSocket
    split
    case isTrue own => exact connected own
    case isFalse shared => exact unconnected

/-- What a send to a peer does: nothing for an unknown one; a write to the
socket the contact has; otherwise an attempt to connect, and a write to the new
socket where that succeeds; or a search for a contact without an address. -/
theorem send_cases (env : SendEnv) (msgtag : Int) (msg : CString) {res : Int}
    (call : b.send env msgtag peer msg = (res, b', actions)) :
    (b.scontacts.findPeer peer = none ∧ b' = b ∧ actions = []) ∨
    ∃ p, b.scontacts.findPeer peer = some p ∧
      ((0 ≤ (b.scontacts.info p).socket ∧ b' = b.touch env.call.now p ∧
        actions = [.unicast msgtag (b.scontacts.info p).socket msg]) ∨
      ((b.scontacts.info p).socket < 0 ∧ (b.scontacts.info p).ip ≠ -1 ∧ 0 ≤ env.connect ∧
        b' = { b with scontacts :=
          ((b.scontacts.touch env.call.now p).updateSocket env.call p env.connect).2 } ∧
        actions = [.connect (b.scontacts.info p).ip (b.scontacts.info p).port env.connect,
          .unicast msgtag env.connect msg]) ∨
      ((b.scontacts.info p).socket < 0 ∧ (b.scontacts.info p).ip ≠ -1 ∧ env.connect < 0 ∧
        b' = b.touch env.call.now p ∧
        actions = [.connect (b.scontacts.info p).ip (b.scontacts.info p).port env.connect]) ∨
      ((b.scontacts.info p).socket < 0 ∧ (b.scontacts.info p).ip = -1 ∧
        b' = b.touch env.call.now p ∧
        actions = if (b.scontacts.info p).name.length > 0 then
          [.multicast sbusFind (b.scontacts.info p).name] else [])) := by
  unfold send peer2Socket at call
  cases found : b.scontacts.findPeer peer with
  | none =>
      simp only [found] at call
      rw [if_pos (by decide), Prod.mk.injEq, Prod.mk.injEq] at call
      exact .inl ⟨rfl, call.2.1.symm, call.2.2.symm⟩
  | some p =>
      refine .inr ⟨p, rfl, ?_⟩
      simp only [found] at call
      by_cases open_ : 0 ≤ (b.scontacts.info p).socket
      · rw [if_pos open_, if_neg (Int.not_lt.mpr open_), Prod.mk.injEq, Prod.mk.injEq] at call
        exact .inl ⟨open_, call.2.1.symm, call.2.2.symm⟩
      · have shut := Int.not_le.mp open_
        rw [if_neg open_] at call
        by_cases located : (b.scontacts.info p).ip = -1
        · rw [if_neg (not_not.mpr located)] at call
          refine .inr (.inr (.inr ⟨shut, located, ?_⟩))
          by_cases named : (b.scontacts.info p).name.length > 0
          · rw [if_pos named, if_pos (by decide : (-1 : Int) < 0), Prod.mk.injEq,
              Prod.mk.injEq] at call
            rw [if_pos named]
            exact ⟨call.2.1.symm, call.2.2.symm⟩
          · rw [if_neg named, if_pos (by decide : (-1 : Int) < 0), Prod.mk.injEq,
              Prod.mk.injEq] at call
            rw [if_neg named]
            exact ⟨call.2.1.symm, call.2.2.symm⟩
        · rw [if_pos located] at call
          by_cases made : 0 ≤ env.connect
          · rw [if_pos made, if_neg (Int.not_lt.mpr made), Prod.mk.injEq, Prod.mk.injEq] at call
            exact .inr (.inl ⟨shut, located, made, call.2.1.symm, call.2.2.symm⟩)
          · rw [if_neg made, if_pos (Int.not_le.mp made), Prod.mk.injEq, Prod.mk.injEq] at call
            exact .inr (.inr (.inl ⟨shut, located, Int.not_le.mp made, call.2.1.symm,
              call.2.2.symm⟩))

theorem send_changes (ok : IP → Port → SocketType → Prop) {env : SendEnv} {msgtag : Int}
    {msg : CString} {res : Int}
    (connected : ∀ ip port, .connect ip port env.connect ∈ actions → 0 ≤ env.connect →
      ok ip port env.connect)
    (call : b.send env msgtag peer msg = (res, b', actions)) :
    Changes ok b.scontacts b'.scontacts ∧ b' = { b with scontacts := b'.scontacts } := by
  rcases send_cases env msgtag msg call with ⟨_, rfl, _⟩ | ⟨p, _, ⟨_, rfl, _⟩ |
    ⟨_, _, made, rfl, rfl⟩ | ⟨_, _, _, rfl, _⟩ | ⟨_, _, rfl, _⟩⟩
  · exact ⟨.refl, rfl⟩
  · exact ⟨.single (.stamp _ _ _), rfl⟩
  · refine ⟨.tail (.single (.stamp _ env.call.now p)) (.refile _ _ _ p _ ⟨rfl, rfl, rfl⟩
      (.inr ?_)), rfl⟩
    exact connected _ _ List.mem_cons_self made
  · exact ⟨.single (.stamp _ _ _), rfl⟩
  · exact ⟨.single (.stamp _ _ _), rfl⟩

/-- The bus once the name a message announces is written down. -/
def renamed (b : SBus) (e : CallEnv) (smsg : SMsg) (p : Ptr) : SBus :=
  if smsg.msgtag = sbusManameis ∨ smsg.msgtag = sbusNametaken then
    { b with scontacts := (b.scontacts.updateName e p smsg.msg).2 }
  else b

/-- The tag of the reply a message asks for. -/
def replyTag (b : SBus) (smsg : SMsg) : Option Int :=
  if b.name = smsg.msg then
    if smsg.msgtag = sbusFind then some sbusManameis
    else if smsg.msgtag = sbusManameis then some sbusNametaken
    else none
  else none

/-- A message asks for a reply by the name of the bus, with a FIND or a MANAMEIS. -/
theorem replyTag_cases {tag : Int} (reply : b.replyTag smsg = some tag) :
    b.name = smsg.msg ∧ ((smsg.msgtag = sbusFind ∧ tag = sbusManameis) ∨
      (smsg.msgtag = sbusManameis ∧ tag = sbusNametaken)) := by
  unfold replyTag at reply
  split at reply
  case isFalse other => cases reply
  case isTrue own =>
    refine ⟨own, ?_⟩
    split at reply
    case isTrue find => exact .inl ⟨find, (Option.some.inj reply).symm⟩
    case isFalse quiet =>
      split at reply
      case isTrue manameis => exact .inr ⟨manameis, (Option.some.inj reply).symm⟩
      case isFalse last => cases reply

/-- A message has its name written down, and then the reply it asks for is sent. -/
theorem handle_cases {env : StepEnv} {id : SBusPeer}
    (call : b.handle env smsg p peer = (id, b', actions)) :
    (b.replyTag smsg = none ∧ b' = b.renamed env.rename smsg p ∧ actions = []) ∨
    ∃ tag res, b.replyTag smsg = some tag ∧
      (b.renamed env.rename smsg p).send env.reply tag peer b.name = (res, b', actions) := by
  have system : sbusFind ≤ 0 ∧ sbusManameis ≤ 0 ∧ sbusNametaken ≤ 0 := by decide
  have apart : sbusManameis ≠ sbusFind ∧ sbusNametaken ≠ sbusFind ∧
      sbusNametaken ≠ sbusManameis := by decide
  by_cases find : smsg.msgtag = sbusFind
  · have same : b.renamed env.rename smsg p = b := by
      simp [renamed, find, apart.1.symm, apart.2.1.symm]
    rw [same]
    simp only [handle, find, system, if_true] at call
    by_cases own : b.name = smsg.msg
    · rcases sent : b.send env.reply sbusManameis peer b.name with ⟨res, d, done⟩
      rw [if_pos own, sent] at call
      simp only [Prod.mk.injEq] at call
      obtain ⟨_, rfl, rfl⟩ := call
      exact .inr ⟨sbusManameis, res, by simp [replyTag, find, own], sent⟩
    · simp only [own, if_false, Prod.mk.injEq] at call
      obtain ⟨_, rfl, rfl⟩ := call
      exact .inl ⟨by simp [replyTag, own], rfl, rfl⟩
  by_cases manameis : smsg.msgtag = sbusManameis
  · have same : b.renamed env.rename smsg p =
        { b with scontacts := (b.scontacts.updateName env.rename p smsg.msg).2 } := by
      simp [renamed, manameis]
    rw [same]
    simp only [handle, manameis, system, apart.1, if_true, if_false] at call
    by_cases own : b.name = smsg.msg
    · rcases sent : SBus.send { b with scontacts :=
          (b.scontacts.updateName env.rename p smsg.msg).2 } env.reply sbusNametaken peer b.name
        with ⟨res, d, done⟩
      rw [if_pos own, sent] at call
      simp only [Prod.mk.injEq] at call
      obtain ⟨_, rfl, rfl⟩ := call
      exact .inr ⟨sbusNametaken, res, by simp [replyTag, manameis, apart.1, own], sent⟩
    · simp only [own, if_false, Prod.mk.injEq] at call
      obtain ⟨_, rfl, rfl⟩ := call
      exact .inl ⟨by simp [replyTag, own], rfl, rfl⟩
  · have silent : b.replyTag smsg = none := by simp [replyTag, find, manameis]
    by_cases nametaken : smsg.msgtag = sbusNametaken
    · simp only [handle, nametaken, system, apart.2.1, apart.2.2, if_true, if_false,
        Prod.mk.injEq] at call
      obtain ⟨_, rfl, rfl⟩ := call
      exact .inl ⟨silent, by simp [renamed, nametaken], rfl⟩
    · simp only [handle, find, manameis, nametaken, if_false, ite_self, Prod.mk.injEq] at call
      obtain ⟨_, rfl, rfl⟩ := call
      exact .inl ⟨silent, by simp [renamed, manameis, nametaken], rfl⟩

theorem renamed_changes (b : SBus) (ok : IP → Port → SocketType → Prop) (e : CallEnv)
    (smsg : SMsg) (p : Ptr) :
    Changes ok b.scontacts (b.renamed e smsg p).scontacts ∧
      b.renamed e smsg p = { b with scontacts := (b.renamed e smsg p).scontacts } := by
  unfold renamed
  split
  case isTrue announces =>
    exact ⟨.single (.refile _ _ e p _ ⟨rfl, rfl, rfl⟩ (.inl rfl)), rfl⟩
  case isFalse quiet => exact ⟨.refl, rfl⟩

theorem handle_changes (ok : IP → Port → SocketType → Prop) {env : StepEnv} {id : SBusPeer}
    (connected : ∀ ip port, .connect ip port env.reply.connect ∈ actions →
      0 ≤ env.reply.connect → ok ip port env.reply.connect)
    (call : b.handle env smsg p peer = (id, b', actions)) :
    Changes ok b.scontacts b'.scontacts ∧ b' = { b with scontacts := b'.scontacts } := by
  obtain ⟨first, same⟩ := b.renamed_changes ok env.rename smsg p
  rcases handle_cases call with ⟨_, rfl, _⟩ | ⟨tag, res, _, sent⟩
  · exact ⟨first, same⟩
  · obtain ⟨second, same'⟩ := send_changes ok connected sent
    refine ⟨first.trans second, ?_⟩
    rw [same', same]

section Keeps

variable {I : SContacts → Prop} (stamp : ∀ c now p, I c → I (c.touch now p))
  (refile : ∀ c now e x r, SameContact r (c.info x) → r.peer = peer → I c →
    I ((c.erase now x).file e r).2)

include stamp refile

/-- A send enters nobody: it keeps what stamping and filing again under the
peer's id keep. -/
theorem send_keeps {env : SendEnv} {msgtag res : Int} {msg : CString}
    (sound : IndexesSound b.scontacts b.scontacts.heap.live)
    (call : b.send env msgtag peer msg = (res, b', actions)) (start : I b.scontacts) :
    I b'.scontacts := by
  rcases send_cases env msgtag msg call with ⟨_, rfl, _⟩ | ⟨q, found, ⟨_, rfl, _⟩ |
    ⟨_, _, _, rfl, _⟩ | ⟨_, _, _, rfl, _⟩ | ⟨_, _, rfl, _⟩⟩
  · exact start
  · exact stamp _ _ _ start
  · have own : (b.scontacts.info q).peer = peer := (sound.peers peer q found).2
    exact refile _ _ _ _ _ ⟨rfl, rfl, rfl⟩ own (stamp _ _ _ start)
  · exact stamp _ _ _ start
  · exact stamp _ _ _ start

/-- Nor does what a message asks for, done for the record it is from. -/
theorem handle_keeps {env : StepEnv} {id : SBusPeer}
    (sound : IndexesSound b.scontacts b.scontacts.heap.live)
    (own : (b.scontacts.info p).peer = peer)
    (call : b.handle env smsg p peer = (id, b', actions)) (start : I b.scontacts) :
    I b'.scontacts := by
  have first : I (b.renamed env.rename smsg p).scontacts := by
    unfold renamed
    split
    case isTrue announces => exact refile _ _ _ _ _ ⟨rfl, rfl, rfl⟩ own start
    case isFalse quiet => exact start
  rcases handle_cases call with ⟨_, rfl, _⟩ | ⟨tag, res, _, sent⟩
  · exact first
  · obtain ⟨changes, _⟩ := b.renamed_changes (fun _ _ _ => True) env.rename smsg p
    exact send_keeps stamp refile (sound.changes changes) sent first

end Keeps

/-- What is done with a message: a lost connection is written down, the bus's own
message is ignored, and any other one is processed in two parts, the search for the
sender and what the message asks for. -/
theorem processSMsg_cases {env : StepEnv} {id : SBusPeer}
    (call : b.processSMsg env smsg = some (id, b', actions)) :
    (smsg.error = true ∧ id = -1 ∧ b' = b.processError env.lookup smsg ∧ actions = []) ∨
    (smsg.error = false ∧ b.isSelf smsg ∧ id = -1 ∧ b' = b ∧ actions = []) ∨
    (smsg.error = false ∧ ¬ b.isSelf smsg ∧ ∃ p d, b.sender env.lookup smsg = some (p, d) ∧
      (d.touch env.lookup.now p).handle env smsg p (d.scontacts.info p).peer =
        (id, b', actions)) := by
  unfold processSMsg at call
  cases lost : smsg.error with
  | true =>
      rw [if_pos lost, Option.some.injEq, Prod.mk.injEq, Prod.mk.injEq] at call
      exact .inl ⟨rfl, call.1.symm, call.2.1.symm, call.2.2.symm⟩
  | false =>
      rw [if_neg (by rw [lost]; decide)] at call
      by_cases own : b.isSelf smsg
      · rw [if_pos own, Option.some.injEq, Prod.mk.injEq, Prod.mk.injEq] at call
        exact .inr (.inl ⟨rfl, own, call.1.symm, call.2.1.symm, call.2.2.symm⟩)
      · rw [if_neg own] at call
        obtain ⟨⟨p, d⟩, found, handled⟩ := Option.map_eq_some_iff.mp call
        exact .inr (.inr ⟨rfl, own, p, d, found, handled⟩)

theorem processSMsg_eq_some {env : StepEnv} {id : SBusPeer} (data : smsg.error = false)
    (other : ¬ b.isSelf smsg) (call : b.processSMsg env smsg = some (id, b', actions)) :
    ∃ p d, b.sender env.lookup smsg = some (p, d) ∧
      (d.touch env.lookup.now p).handle env smsg p (d.scontacts.info p).peer =
        (id, b', actions) := by
  rcases processSMsg_cases call with ⟨lost, _⟩ | ⟨_, own, _⟩ | ⟨_, _, parts⟩
  · rw [data] at lost
    cases lost
  · exact absurd own other
  · exact parts

/-- Everything processing a message does to a bus is a sequence of changes of
its contacts. -/
theorem processSMsg_changes (ok : IP → Port → SocketType → Prop) {env : StepEnv} {id : SBusPeer}
    (sound : IndexesSound b.scontacts b.scontacts.heap.live) (data : smsg.error = false)
    (unconnected : ok smsg.ip smsg.port invalidSocket)
    (connected : smsg.socket ≠ b.mcsock → ok smsg.ip smsg.port smsg.socket)
    (reconnected : ∀ ip port, .connect ip port env.reply.connect ∈ actions →
      0 ≤ env.reply.connect → ok ip port env.reply.connect)
    (call : b.processSMsg env smsg = some (id, b', actions)) :
    Changes ok b.scontacts b'.scontacts ∧ b' = { b with scontacts := b'.scontacts } := by
  rcases processSMsg_cases call with ⟨lost, _⟩ | ⟨_, _, _, rfl, _⟩ | ⟨_, _, p, d, found, handled⟩
  · rw [data] at lost
    cases lost
  · exact ⟨.refl, rfl⟩
  · obtain ⟨first, same⟩ := sender_changes ok sound unconnected connected found
    obtain ⟨second, same'⟩ := handle_changes ok reconnected handled
    refine ⟨(first.tail (.stamp _ env.lookup.now p)).trans second, ?_⟩
    rw [same', touch, same]

/-- The report of a lost connection changes the contacts only, too. -/
theorem processError_changes (b : SBus) (ok : IP → Port → SocketType → Prop)
    (unconnected : ∀ ip port, ok ip port invalidSocket) (e : CallEnv) (smsg : SMsg) :
    Changes ok b.scontacts (b.processError e smsg).scontacts ∧
      b.processError e smsg = { b with scontacts := (b.processError e smsg).scontacts } := by
  unfold processError
  split
  case h_1 p held =>
    have reset : Change ok b.scontacts (b.scontacts.updateSocket e p invalidSocket).2 :=
      .refile _ e.now e p _ ⟨rfl, rfl, rfl⟩ (.inr (unconnected _ _))
    exact ⟨.tail (.single reset) (.stamp _ e.now _), rfl⟩
  case h_2 unheld => exact ⟨.refl, rfl⟩

/-- Whatever a message is, processing it is a sequence of changes of the contacts. -/
theorem processSMsg_any_changes {env : StepEnv} {id : SBusPeer}
    (sound : IndexesSound b.scontacts b.scontacts.heap.live)
    (call : b.processSMsg env smsg = some (id, b', actions)) :
    Changes (fun _ _ _ => True) b.scontacts b'.scontacts ∧
      b' = { b with scontacts := b'.scontacts } := by
  cases lost : smsg.error with
  | false =>
      exact processSMsg_changes _ sound lost trivial (fun _ => trivial) (fun _ _ _ _ => trivial)
        call
  | true =>
      rcases processSMsg_cases call with ⟨_, _, rfl, _⟩ | ⟨data, _⟩ | ⟨data, _⟩
      · exact processError_changes b _ (fun _ _ => trivial) env.lookup smsg
      · rw [lost] at data
        cases data
      · rw [lost] at data
        cases data

end SBus

end LibSBus
