import LibSBus.SContacts.Accesses
import LibSBus.SBus.Descriptors
import LibSBus.SBus.Inbox
import LibSBus.SBus.Senders

/-!
Which records `processSMsg` reads or passes on, and whether they are in the table
at that moment. `sender`, `peer2Socket`, `send`, `handle` and `processSMsg` are
written again with what they touch; what they return is what they returned
before.

A pointer does not show that its record was deleted: `operator new` may have put
another record at the address. So a pointer kept in a variable is kept with
whether that happened, and the one that `processSMsg` still uses after it dropped
the result of `updateSocket` is kept as deleted.
-/

namespace LibSBus

open Lib SContacts

/-- A record that is read or passed on: the table at that moment, the pointer, and
whether the record has been deleted since the pointer was obtained. -/
structure Touched where
  table : SContacts
  record : Ptr
  deleted : Bool

/-- The record is in the table. -/
def Touched.InTable (t : Touched) : Prop := t.deleted = false ∧ t.record ∈ t.table.contacts

instance : DecidablePred Touched.InTable := fun t =>
  inferInstanceAs (Decidable (_ = false ∧ t.record ∈ t.table.contacts))

/-- A pointer in a variable. -/
structure Held where
  ptr : Ptr
  deleted : Bool

abbrev Touching := Writer (List Touched)

namespace SContacts

/-- Getters are called on the record, or it is passed on. -/
def use (c : SContacts) (h : Held) : Touching PUnit := tell [⟨c, h.ptr, h.deleted⟩]

/-- The records the loops of `show` and `doCleanUp` visit. -/
def visited (c : SContacts) : List Touched := c.peers.entries.map fun it => ⟨c, it.2, false⟩

/-- `updateSocket` or `updateName`, called with a pointer. -/
def updating (c : SContacts) (h : Held) (update : Reading (Ptr × SContacts)) :
    Touching (Ptr × SContacts) := do
  tell ((reads [] (trace update)).map fun r => ⟨c, r.1, h.deleted || r.2⟩)
  tell (value update).2.visited
  return value update

/-- `add` -/
def addTouching (c : SContacts) (e : CallEnv) (socket : SocketType) (ip : IP) (port : Port)
    (name : CString) : Touching (Option (Ptr × SContacts)) := do
  let added := c.add e socket ip port name
  if c.findIpPort ip port = none ∧ c.findName name = none then
    if e.now - c.lastCleanUp > minCleanupPeriodS then tell c.visited
    tell (added.elim [] fun made => made.2.visited)
  return added

end SContacts

namespace SBus

/-- `peer2Socket` -/
def peer2SocketTouching (b : SBus) (env : SendEnv) (peer : SBusPeer) :
    Touching (SocketType × SBus × List Action) :=
  match b.scontacts.findPeer peer with
  | none => pure (-1, b, [])
  | some peerInfo => do
      b.scontacts.use ⟨peerInfo, false⟩
      let r := b.scontacts.info peerInfo
      let b := b.touch env.call.now peerInfo
      if r.socket ≥ 0 then pure (r.socket, b, [])
      else if r.ip ≠ -1 then
        let actions := [Action.connect r.ip r.port env.connect]
        if env.connect ≥ 0 then
          let updated ← b.scontacts.updating ⟨peerInfo, false⟩
            (b.scontacts.updateSocketReading env.call peerInfo env.connect)
          pure (env.connect, { b with scontacts := updated.2 }, actions)
        else pure (env.connect, b, actions)
      else if r.name.length > 0 then pure (-1, b, [.multicast sbusFind r.name])
      else pure (-1, b, [])

/-- `SBus::send` to one peer. -/
def sendTouching (b : SBus) (env : SendEnv) (msgtag : Int) (peer : SBusPeer) (msg : CString) :
    Touching (Int × SBus × List Action) := do
  match ← b.peer2SocketTouching env peer with
  | (socket, b, actions) =>
      if socket < 0 then pure (-1, b, actions)
      else pure (env.sent, b, actions ++ [.unicast msgtag socket msg])

/-- `processSMsg`, lines 249 to 265. The result of `updateSocket` is dropped. -/
def senderTouching (b : SBus) (e : CallEnv) (smsg : SMsg) : Touching (Option (Held × SBus)) :=
  match b.scontacts.findFromSocket smsg.socket with
  | some peerInfo => pure (some (⟨peerInfo, false⟩, b))
  | none =>
      match b.scontacts.findIpPort smsg.ip smsg.port with
      | none => do
          let sock := if smsg.socket ≠ b.mcsock then smsg.socket else invalidSocket
          let added ← b.scontacts.addTouching e sock smsg.ip smsg.port b.name
          pure (added.map fun (peerInfo, scontacts) =>
            (⟨peerInfo, false⟩, { b with scontacts }))
      | some peerInfo =>
          if smsg.socket ≠ b.mcsock then do
            let updated ← b.scontacts.updating ⟨peerInfo, false⟩
              (b.scontacts.updateSocketReading e peerInfo smsg.socket)
            pure (some (⟨peerInfo, true⟩, { b with scontacts := updated.2 }))
          else pure (some (⟨peerInfo, false⟩, b))

/-- `processSMsg`, lines 268 to 296. -/
def handleTouching (b : SBus) (env : StepEnv) (smsg : SMsg) (peerInfo : Held) (peer : SBusPeer) :
    Touching (SBusPeer × SBus × List Action) :=
  if smsg.msgtag ≤ 0 then
    if smsg.msgtag = sbusFind then
      if b.name = smsg.msg then do
        let (_, b, actions) ← b.sendTouching env.reply sbusManameis peer b.name
        pure (-1, b, actions)
      else pure (-1, b, [])
    else if smsg.msgtag = sbusManameis then do
      let renamed ← b.scontacts.updating peerInfo
        (b.scontacts.updateNameReading env.rename peerInfo.ptr smsg.msg)
      let b := { b with scontacts := renamed.2 }
      if b.name = smsg.msg then
        let (_, b, actions) ← b.sendTouching env.reply sbusNametaken peer b.name
        pure (peer, b, actions)
      else pure (peer, b, [])
    else if smsg.msgtag = sbusNametaken then do
      let renamed ← b.scontacts.updating peerInfo
        (b.scontacts.updateNameReading env.rename peerInfo.ptr smsg.msg)
      pure (peer, { b with scontacts := renamed.2 }, [])
    else pure (peer, b, [])
  else pure (peer, b, [])

/-- `processSMsg` of the report of a lost connection. -/
def processErrorTouching (b : SBus) (e : CallEnv) (smsg : SMsg) : Touching SBus :=
  match b.scontacts.findFromSocket smsg.socket with
  | some peerInfo => do
      let updated ← b.scontacts.updating ⟨peerInfo, false⟩
        (b.scontacts.updateSocketReading e peerInfo invalidSocket)
      updated.2.use ⟨updated.1, false⟩
      pure { b with scontacts := updated.2.touch e.now updated.1 }
  | none => pure b

def processSMsgTouching (b : SBus) (env : StepEnv) (smsg : SMsg) :
    Touching (Option (SBusPeer × SBus × List Action)) :=
  if smsg.error then do
    let b ← b.processErrorTouching env.lookup smsg
    pure (some (-1, b, []))
  else if b.isSelf smsg then pure (some (-1, b, []))
  else do
    match ← b.senderTouching env.lookup smsg with
    | none => pure none
    | some (peerInfo, b) =>
        b.scontacts.use peerInfo
        let peer := (b.scontacts.info peerInfo.ptr).peer
        let result ← (b.touch env.lookup.now peerInfo.ptr).handleTouching env smsg peerInfo peer
        pure (some result)

variable {b b' d : SBus} {e : CallEnv} {env : StepEnv} {smsg : SMsg} {p : Ptr} {h : Held}
  {peer id : SBusPeer} {actions : List Action}

@[simp] theorem value_updating (c : SContacts) (h : Held) (update : Reading (Ptr × SContacts)) :
    value (c.updating h update) = value update := rfl

theorem value_addTouching (c : SContacts) (e : CallEnv) (socket : SocketType) (ip : IP)
    (port : Port) (name : CString) :
    value (c.addTouching e socket ip port name) = c.add e socket ip port name := by
  unfold addTouching
  split_ifs <;> rfl

theorem value_peer2SocketTouching (b : SBus) (env : SendEnv) (peer : SBusPeer) :
    value (b.peer2SocketTouching env peer) = b.peer2Socket env peer := by
  unfold peer2SocketTouching peer2Socket
  cases b.scontacts.findPeer peer with
  | none => rfl
  | some peerInfo => simp

theorem value_sendTouching (b : SBus) (env : SendEnv) (msgtag : Int) (peer : SBusPeer)
    (msg : CString) : value (b.sendTouching env msgtag peer msg) = b.send env msgtag peer msg := by
  unfold sendTouching send
  simp [value_peer2SocketTouching]

theorem value_senderTouching (b : SBus) (e : CallEnv) (smsg : SMsg) :
    (value (b.senderTouching e smsg)).map (fun (h, d) => (h.ptr, d)) = b.sender e smsg := by
  unfold senderTouching sender
  cases b.scontacts.findFromSocket smsg.socket with
  | some peerInfo => rfl
  | none =>
      cases b.scontacts.findIpPort smsg.ip smsg.port with
      | none => simp [value_addTouching, Function.comp_def]
      | some peerInfo => split_ifs <;> rfl

theorem value_handleTouching (b : SBus) (env : StepEnv) (smsg : SMsg) (h : Held)
    (peer : SBusPeer) : value (b.handleTouching env smsg h peer) =
      b.handle env smsg h.ptr peer := by
  unfold handleTouching handle
  simp [value_sendTouching]

/-- What is touched changes nothing in what `processSMsg` does. -/
theorem value_processSMsgTouching (b : SBus) (env : StepEnv) (smsg : SMsg) :
    value (b.processSMsgTouching env smsg) = b.processSMsg env smsg := by
  unfold processSMsgTouching processSMsg
  rw [value_ite, value_ite]
  congr 1
  · unfold processErrorTouching processError
    cases b.scontacts.findFromSocket smsg.socket <;> rfl
  · congr 1
    rw [← value_senderTouching, value_bind]
    cases value (b.senderTouching env.lookup smsg) with
    | none => rfl
    | some found => simp [value_handleTouching]

end SBus

namespace SContacts

variable {c : SContacts} {e : CallEnv} {p : Ptr} {h : Held}

theorem visited_inTable (ok : Consistent c) : ∀ t ∈ c.visited, t.InTable := by
  intro t member
  obtain ⟨it, entry, rfl⟩ := List.mem_map.mp member
  exact ⟨rfl, (ok.sound.peers it.1 it.2 (AList.mem_lookup_iff.mpr entry)).1⟩

/-- `updateName` of a contact touches contacts only. -/
theorem tells_updateName (ok : Consistent c) (contact : p ∈ c.contacts) (name : CString) :
    Tells Touched.InTable (c.updating ⟨p, false⟩ (c.updateNameReading e p name)) := by
  have renamed := ok.updateName contact e name
  have old : (⟨c, p, false⟩ : Touched).InTable := ⟨rfl, contact⟩
  simpa [updating, reads_updateName, old] using visited_inTable renamed

/-- `updateSocket` always touches a record that is gone. -/
theorem not_tells_updateSocket (c : SContacts) (h : Held) (socket : SocketType) :
    ¬ Tells Touched.InTable (c.updating h (c.updateSocketReading e p socket)) := by
  intro tells
  have name : (⟨c, p, true⟩ : Touched).InTable := by
    apply ((tells_bind.mp tells).1)
    simp [reads_updateSocket]
  cases name.1

theorem tells_add (ok : Consistent c) (socket : SocketType) (ip : IP) (port : Port)
    (name : CString) : Tells Touched.InTable (c.addTouching e socket ip port name) := by
  unfold addTouching
  split
  case isTrue new =>
    have made : ∀ t ∈ (c.add e socket ip port name).elim [] fun made => made.2.visited,
        t.InTable := by
      cases added : c.add e socket ip port name with
      | none => simp
      | some made =>
          rcases add_eq_some added with ⟨_, found⟩ | ⟨_, _, found⟩ | ⟨_, _, _, filed⟩
          · rw [new.1] at found
            cases found
          · rw [new.2] at found
            cases found
          · apply visited_inTable
            rw [show made.2 = _ from congrArg Prod.snd filed]
            exact ok.add_new bump_lastPeerId e
    simp only [tells_bind, tells_ite, tells_tell, tells_pure, and_true]
    split
    case isTrue due => exact ⟨visited_inTable ok, made⟩
    case isFalse early => exact made
  case isFalse known => simp

end SContacts

namespace SBus

variable {b b' d : SBus} {e : CallEnv} {env : StepEnv} {smsg : SMsg} {p : Ptr} {h : Held}
  {peer id : SBusPeer} {actions : List Action}

/-- A send to the contact with the record `r` opens a connection. -/
def Connects (env : SendEnv) (r : SPeerInfo) : Prop :=
  r.socket < 0 ∧ r.ip ≠ -1 ∧ 0 ≤ env.connect

instance (env : SendEnv) (r : SPeerInfo) : Decidable (Connects env r) :=
  inferInstanceAs (Decidable (_ ∧ _ ∧ _))

theorem tells_peer2Socket (ok : Consistent b.scontacts) (env : SendEnv) (peer : SBusPeer) :
    Tells Touched.InTable (b.peer2SocketTouching env peer) ↔
      ∀ q ∈ b.scontacts.findPeer peer, ¬ Connects env (b.scontacts.info q) := by
  unfold peer2SocketTouching
  cases found : b.scontacts.findPeer peer with
  | none => simp
  | some q =>
      have used : (⟨b.scontacts, q, false⟩ : Touched).InTable := ⟨rfl, (ok.sound.peers _ q found).1⟩
      simp [use, used, Connects, not_tells_updateSocket]

theorem tells_send (ok : Consistent b.scontacts) (env : SendEnv) (msgtag : Int) (peer : SBusPeer)
    (msg : CString) : Tells Touched.InTable (b.sendTouching env msgtag peer msg) ↔
      ∀ q ∈ b.scontacts.findPeer peer, ¬ Connects env (b.scontacts.info q) := by
  rw [← tells_peer2Socket ok, sendTouching]
  simp

/-- No record is replaced for the sender of a message: it came over multicast, or on
the socket of a contact, or no contact has its address. -/
def Unmoved (b : SBus) (smsg : SMsg) : Prop :=
  smsg.socket = b.mcsock ∨ b.scontacts.findFromSocket smsg.socket ≠ none ∨
    b.scontacts.findIpPort smsg.ip smsg.port = none

instance (b : SBus) (smsg : SMsg) : Decidable (b.Unmoved smsg) :=
  inferInstanceAs (Decidable (_ ∨ _ ∨ _))

theorem tells_sender (ok : Consistent b.scontacts) (e : CallEnv) (smsg : SMsg) :
    Tells Touched.InTable (b.senderTouching e smsg) ↔ b.Unmoved smsg := by
  unfold senderTouching Unmoved
  cases b.scontacts.findFromSocket smsg.socket with
  | some q => simp
  | none =>
      cases b.scontacts.findIpPort smsg.ip smsg.port with
      | none => simp [tells_add ok]
      | some q => simp [not_tells_updateSocket]

/-- The pointer to a sender that was not moved leads to a contact with its record. -/
theorem sender_contact (ok : Consistent b.scontacts) (unmoved : b.Unmoved smsg)
    (found : b.sender e smsg = some (p, d)) :
    Consistent d.scontacts ∧ p ∈ d.scontacts.contacts ∧
      d.scontacts.info p = b.senderRecord smsg ∧ d.name = b.name := by
  rcases sender_cases found with ⟨held, rfl⟩ | ⟨unheld, addressed, rfl⟩ |
    ⟨unheld, missing, named, rfl⟩ | ⟨unheld, missing, unnamed, _, rfl, rfl⟩
  · exact ⟨ok, (ok.sound.sockets _ p held).1, by simp [senderRecord, held], rfl⟩
  · have shared : smsg.socket = b.mcsock := by simpa [Unmoved, unheld, addressed] using unmoved
    rw [if_neg (not_not.mpr shared)]
    have record : b.senderRecord smsg = b.scontacts.info p := by
      simp only [senderRecord, unheld, addressed, if_neg (not_not.mpr shared)]
    exact ⟨ok, (ok.sound.addrs _ p addressed).1, record.symm, rfl⟩
  · exact ⟨ok, (ok.sound.names _ p named).1, by simp [senderRecord, unheld, missing, named], rfl⟩
  · refine ⟨ok.add_new (r := b.newcomer smsg) rfl e, ?_, ?_, rfl⟩
    · rw [contacts_file (ok.next_id_free rfl)]
      exact Set.mem_insert _ _
    · rw [info_file_self]
      simp [senderRecord, unheld, missing, unnamed]

/-- The pointer to a sender that was not moved is good. -/
theorem sender_held (unmoved : b.Unmoved smsg) (found : b.sender e smsg = some (p, d)) :
    value (b.senderTouching e smsg) = some (⟨p, false⟩, d) := by
  have good : ∀ held ∈ value (b.senderTouching e smsg), held.1.deleted = false := by
    unfold senderTouching
    unfold Unmoved at unmoved
    cases held : b.scontacts.findFromSocket smsg.socket with
    | some q => simp
    | none =>
        cases addressed : b.scontacts.findIpPort smsg.ip smsg.port with
        | none =>
            intro held member
            simp only [value_bind, value_addTouching, value_pure] at member
            obtain ⟨added, _, rfl⟩ := Option.map_eq_some_iff.mp member
            rfl
        | some q =>
            have shared : smsg.socket = b.mcsock := by simpa [held, addressed] using unmoved
            simp [shared]
  have same := b.value_senderTouching e smsg
  rw [found] at same
  obtain ⟨⟨⟨q, deleted⟩, d'⟩, held, both⟩ := Option.map_eq_some_iff.mp same
  obtain ⟨rfl, rfl⟩ := Prod.mk.inj both
  have kept : deleted = false := good _ held
  rw [held, kept]

/-- A name is written down for a contact, and its record is that of the contact otherwise. -/
theorem renamed_contact (ok : Consistent b.scontacts) (contact : p ∈ b.scontacts.contacts)
    (e : CallEnv) (smsg : SMsg) :
    Consistent (b.renamed e smsg p).scontacts ∧
      ∃ q ∈ (b.renamed e smsg p).scontacts.contacts,
        ∃ name, (b.renamed e smsg p).scontacts.info q = { b.scontacts.info p with name } := by
  unfold renamed
  split
  case isTrue announces =>
    exact ⟨ok.updateName contact e smsg.msg, (b.scontacts.updateName e p smsg.msg).1,
      updateName_contact contact e smsg.msg, smsg.msg, info_file_self⟩
  case isFalse quiet => exact ⟨ok, p, contact, (b.scontacts.info p).name, rfl⟩

theorem tells_send_contact (ok : Consistent b.scontacts) (contact : p ∈ b.scontacts.contacts)
    (own : (b.scontacts.info p).peer = peer) (env : SendEnv) (msgtag : Int) (msg : CString) :
    Tells Touched.InTable (b.sendTouching env msgtag peer msg) ↔
      ¬ Connects env (b.scontacts.info p) := by
  have known : b.scontacts.findPeer peer = some p := own ▸ contact.2
  rw [tells_send ok, known]
  simp

theorem tells_handle (ok : Consistent b.scontacts) (contact : p ∈ b.scontacts.contacts)
    (env : StepEnv) (smsg : SMsg) :
    Tells Touched.InTable (b.handleTouching env smsg ⟨p, false⟩ (b.scontacts.info p).peer) ↔
      (b.replyTag smsg ≠ none → ¬ Connects env.reply (b.scontacts.info p)) := by
  have system : sbusFind ≤ 0 ∧ sbusManameis ≤ 0 ∧ sbusNametaken ≤ 0 := by decide
  have apart : sbusManameis ≠ sbusFind ∧ sbusNametaken ≠ sbusFind ∧
      sbusNametaken ≠ sbusManameis := by decide
  have updated := tells_updateName (e := env.rename) ok contact smsg.msg
  unfold handleTouching replyTag
  by_cases find : smsg.msgtag = sbusFind
  · have sent := tells_send_contact ok contact rfl env.reply sbusManameis b.name
    by_cases own : b.name = smsg.msg
    · simp [find, system, own, ← sent]
    · simp [find, system, own]
  by_cases manameis : smsg.msgtag = sbusManameis
  · obtain ⟨ok', q, contact', name, shown⟩ := b.renamed_contact ok contact env.rename smsg
    have own_id : ((b.renamed env.rename smsg p).scontacts.info q).peer =
        (b.scontacts.info p).peer := by rw [shown]
    have sent := tells_send_contact ok' contact' own_id env.reply sbusNametaken b.name
    have renamed_eq : b.renamed env.rename smsg p =
        { b with scontacts := (b.scontacts.updateName env.rename p smsg.msg).2 } := by
      simp [renamed, manameis]
    rw [shown, renamed_eq] at sent
    by_cases own : b.name = smsg.msg
    · rw [own] at sent
      simp [manameis, system, apart, own, updated, sent, Connects]
    · simp [manameis, system, apart, own, updated]
  by_cases nametaken : smsg.msgtag = sbusNametaken
  · simp [nametaken, system, apart, updated]
  · simp [find, manameis, nametaken]

/-- What processing a message touches is in the table exactly if no record is
replaced for its sender and the reply it asks for opens no connection. -/
theorem tells_processSMsg (ok : Consistent b.scontacts) (data : smsg.error = false)
    (other : ¬ b.isSelf smsg) (found : b.sender env.lookup smsg = some (p, d)) :
    Tells Touched.InTable (b.processSMsgTouching env smsg) ↔ b.Unmoved smsg ∧
      (b.replyTag smsg ≠ none → ¬ Connects env.reply (b.senderRecord smsg)) := by
  rw [processSMsgTouching, if_neg (by rw [data]; decide), if_neg other, tells_bind,
    tells_sender ok]
  refine and_congr_right fun unmoved => ?_
  obtain ⟨ok', contact, record, name⟩ := sender_contact ok unmoved found
  have used : (⟨d.scontacts, p, false⟩ : Touched).InTable := ⟨rfl, contact⟩
  have handled := tells_handle (b := d.touch env.lookup.now p) (ok'.touch env.lookup.now p) contact
    env smsg
  rw [sender_held unmoved found]
  have asked : (d.touch env.lookup.now p).replyTag smsg = b.replyTag smsg := by
    simp [replyTag, touch, name]
  rw [show (d.touch env.lookup.now p).scontacts.info p = d.scontacts.info p from rfl, asked]
    at handled
  rw [← record]
  simpa [use, used] using handled

/-- Unless the reply opens a connection, a message leaves its sender a contact whose
record differs in the name at most. -/
theorem handle_contact (ok : Consistent b.scontacts) (contact : p ∈ b.scontacts.contacts)
    (quiet : b.replyTag smsg ≠ none → ¬ Connects env.reply (b.scontacts.info p))
    (call : b.handle env smsg p (b.scontacts.info p).peer = (id, b', actions)) :
    Consistent b'.scontacts ∧
      ∃ q ∈ b'.scontacts.contacts, ∃ name,
        b'.scontacts.info q = { b.scontacts.info p with name } := by
  obtain ⟨ok', q, contact', name, shown⟩ := b.renamed_contact ok contact env.rename smsg
  rcases handle_cases call with ⟨_, rfl, _⟩ | ⟨tag, res, reply, sent⟩
  · exact ⟨ok', q, contact', name, shown⟩
  have known : (b.renamed env.rename smsg p).scontacts.findPeer
      ((b.renamed env.rename smsg p).scontacts.info q).peer = some q := contact'.2
  rw [shown] at known
  have quiet := quiet (by simp [reply])
  rcases send_cases env.reply tag b.name sent with ⟨unknown, _⟩ | ⟨x, found, cases_⟩
  · rw [known] at unknown
    cases unknown
  obtain rfl := Option.some.inj (known.symm.trans found)
  rw [shown] at cases_
  rcases cases_ with ⟨_, rfl, _⟩ | ⟨shut, located, made, _⟩ | ⟨_, _, _, rfl, _⟩ | ⟨_, _, rfl, _⟩
  · exact ⟨ok'.touch _ _, q, contact', name, shown⟩
  · exact absurd ⟨shut, located, made⟩ quiet
  · exact ⟨ok'.touch _ _, q, contact', name, shown⟩
  · exact ⟨ok'.touch _ _, q, contact', name, shown⟩

/-- All that processing the message reads or passes on is in the table at that
moment. -/
def ReadsContacts (b : SBus) (env : StepEnv) (smsg : SMsg) : Prop :=
  Tells Touched.InTable (b.processSMsgTouching env smsg)

/-- An id that is returned is that of a contact, which holds the socket of the message
unless this is the multicast socket. -/
def ReturnsHolder (b : SBus) (env : StepEnv) (smsg : SMsg) : Prop :=
  ∀ result ∈ b.processSMsg env smsg, 0 ≤ result.1 →
    ∃ q ∈ result.2.1.scontacts.findPeer result.1, q ∈ result.2.1.scontacts.contacts ∧
      (smsg.socket ≠ b.mcsock → (result.2.1.scontacts.info q).socket = smsg.socket)

/-- The calls on a bus, the processing of a message among them. -/
inductive Call
  | setName (name : CString)
  | send (env : SendEnv) (msgtag : Int) (peer : SBusPeer) (msg : CString)
  | recv (env : StepEnv) (smsg : SMsg)

def exec (b : SBus) : Call → Option SBus
  | .setName name => some (b.setName name).1
  | .send env msgtag peer msg => some (b.send env msgtag peer msg).2.1
  | .recv env smsg => (b.processSMsg env smsg).map fun result => result.2.1

/-- A message of another bus is processed on contacts only. -/
def OnContacts (b : SBus) : Call → Prop
  | .recv env smsg =>
      smsg.error = false → ¬ b.isSelf smsg → b.ReadsContacts env smsg ∧ b.ReturnsHolder env smsg
  | _ => True

/-- No record is replaced for the sender, the reply opens no connection, and the record
the message leads to holds its socket already if it needs to. -/
def Settled (b : SBus) : Call → Prop
  | .recv env smsg =>
      smsg.error = false → ¬ b.isSelf smsg →
        (b.Unmoved smsg ∧
          (b.replyTag smsg ≠ none → ¬ Connects env.reply (b.senderRecord smsg))) ∧
        (smsg.msgtag = sbusFind ∨ smsg.socket = b.mcsock ∨
          (b.senderRecord smsg).socket = smsg.socket)
  | _ => True

instance (b : SBus) (env : StepEnv) (smsg : SMsg) : Decidable (b.ReadsContacts env smsg) :=
  inferInstanceAs (Decidable (Tells _ _))

instance (b : SBus) (call : Call) : Decidable (b.Settled call) := by
  cases call <;> unfold Settled <;> infer_instance

/-- The table after a message that is settled, and the contact of the sender there. -/
theorem processSMsg_contact (ok : Consistent b.scontacts) (data : smsg.error = false)
    (other : ¬ b.isSelf smsg) (unmoved : b.Unmoved smsg)
    (quiet : b.replyTag smsg ≠ none → ¬ Connects env.reply (b.senderRecord smsg))
    (call : b.processSMsg env smsg = some (id, b', actions)) :
    Consistent b'.scontacts ∧
      ∃ q ∈ b'.scontacts.contacts, ∃ name,
        b'.scontacts.info q = { b.senderRecord smsg with name } := by
  obtain ⟨p, d, found, handled⟩ := processSMsg_eq_some data other call
  obtain ⟨ok', contact, record, name⟩ := sender_contact ok unmoved found
  have asked : (d.touch env.lookup.now p).replyTag smsg = b.replyTag smsg := by
    simp [replyTag, touch, name]
  have record' : (d.touch env.lookup.now p).scontacts.info p = b.senderRecord smsg := record
  have left := handle_contact (b := d.touch env.lookup.now p)
    (ok'.touch env.lookup.now p) contact (by rwa [asked, record']) handled
  rwa [record'] at left

/-- The id that is returned, for anything but a search for a name. -/
theorem processSMsg_id (ok : Consistent b.scontacts) (data : smsg.error = false)
    (other : ¬ b.isSelf smsg) (unmoved : b.Unmoved smsg) (answered : smsg.msgtag ≠ sbusFind)
    (call : b.processSMsg env smsg = some (id, b', actions)) :
    id = (b.senderRecord smsg).peer ∧ 0 ≤ id := by
  obtain ⟨p, d, found, handled⟩ := processSMsg_eq_some data other call
  obtain ⟨ok', contact, record, _⟩ := sender_contact ok unmoved found
  have same : id = (d.scontacts.info p).peer := by
    simpa [handled] using
      handle_peer (d.touch env.lookup.now p) env p (d.scontacts.info p).peer answered
  have positive : (1 : Int) ≤ (d.scontacts.info p).peer := (ok'.ids _ p contact.2).1
  rw [← record, same]
  exact ⟨rfl, Int.le_trans (by decide) positive⟩

/-- Where the id of a sender that was not moved is returned, its contact holds the
socket of the message exactly if its record does before. -/
theorem returnsHolder_iff (ok : Consistent b.scontacts) (data : smsg.error = false)
    (other : ¬ b.isSelf smsg) (unmoved : b.Unmoved smsg)
    (quiet : b.replyTag smsg ≠ none → ¬ Connects env.reply (b.senderRecord smsg))
    (call : b.processSMsg env smsg = some (id, b', actions)) :
    b.ReturnsHolder env smsg ↔ smsg.msgtag = sbusFind ∨ smsg.socket = b.mcsock ∨
      (b.senderRecord smsg).socket = smsg.socket := by
  by_cases find : smsg.msgtag = sbusFind
  · obtain ⟨p, d, _, handled⟩ := processSMsg_eq_some data other call
    have none_ : id = -1 := by
      simpa [handled] using
        handle_find (d.touch env.lookup.now p) env p (d.scontacts.info p).peer find
    simp [ReturnsHolder, call, none_, find]
  · obtain ⟨_, q, contact, name, shown⟩ := processSMsg_contact ok data other unmoved quiet call
    obtain ⟨rfl, positive⟩ := processSMsg_id ok data other unmoved find call
    have known : b'.scontacts.findPeer (b'.scontacts.info q).peer = some q := contact.2
    rw [shown] at known
    simp [ReturnsHolder, call, positive, known, contact, shown, find, or_iff_not_imp_left]

/-- A message is processed on contacts only exactly if it is settled. -/
theorem onContacts_iff {call : Call} (ok : Consistent b.scontacts)
    (taken : b.exec call = some b') : b.OnContacts call ↔ b.Settled call := by
  cases call with
  | setName name => exact Iff.rfl
  | send env msgtag peer msg => exact Iff.rfl
  | recv env smsg =>
      obtain ⟨⟨id, d, actions⟩, processed, rfl⟩ := Option.map_eq_some_iff.mp taken
      refine forall_congr' fun data => forall_congr' fun other => ?_
      obtain ⟨p, x, found, _⟩ := processSMsg_eq_some data other processed
      rw [ReadsContacts, tells_processSMsg ok data other found]
      refine and_congr_right fun ⟨unmoved, quiet⟩ => ?_
      exact returnsHolder_iff ok data other unmoved quiet processed

theorem consistent_send {env : SendEnv} {msgtag res : Int} {msg : CString}
    (ok : Consistent b.scontacts) (call : b.send env msgtag peer msg = (res, b', actions)) :
    Consistent b'.scontacts := by
  rcases send_cases env msgtag msg call with ⟨_, rfl, _⟩ | ⟨q, found, ⟨_, rfl, _⟩ |
    ⟨_, _, _, rfl, _⟩ | ⟨_, _, _, rfl, _⟩ | ⟨_, _, rfl, _⟩⟩
  · exact ok
  · exact ok.touch _ _
  · have contact := (ok.sound.peers peer q found).1
    exact (ok.touch env.call.now q).updateSocket contact env.call env.connect
  · exact ok.touch _ _
  · exact ok.touch _ _

theorem consistent_processError (ok : Consistent b.scontacts) (e : CallEnv) (smsg : SMsg) :
    Consistent (b.processError e smsg).scontacts := by
  unfold processError
  split
  case h_1 q held =>
    have contact := (ok.sound.sockets _ q held).1
    have reset := ok.updateSocket contact e invalidSocket
    exact reset.touch _ _
  case h_2 unheld => exact ok

/-- A step lemma: where messages are settled, the table stays consistent. -/
theorem Settled.consistent {call : Call} (settled : b.Settled call) (ok : Consistent b.scontacts)
    (taken : b.exec call = some b') : Consistent b'.scontacts := by
  cases call with
  | setName name =>
      obtain rfl := Option.some.inj taken
      exact ok
  | send env msgtag peer msg =>
      obtain rfl := Option.some.inj taken
      exact consistent_send ok rfl
  | recv env smsg =>
      obtain ⟨⟨id, d, actions⟩, processed, rfl⟩ := Option.map_eq_some_iff.mp taken
      rcases processSMsg_cases processed with ⟨_, _, rfl, _⟩ | ⟨_, _, _, rfl, _⟩ | ⟨data, other, _⟩
      · exact consistent_processError ok env.lookup smsg
      · exact ok
      · obtain ⟨⟨unmoved, quiet⟩, _⟩ := settled data other
        exact (processSMsg_contact ok data other unmoved quiet processed).1

/-- A remote instance connects, is disconnected, and connects again from the same port;
its next announcement is processed through the pointer to the record that was
replaced. -/
theorem announcement_on_replaced :
    ¬ ∀ serverIP serverPort mcsock calls b,
      Run (Det exec) (init serverIP serverPort mcsock) calls b →
        EachStep (Det exec) OnContacts (init serverIP serverPort mcsock) calls := by
  intro all
  let env : StepEnv := ⟨⟨10, 0, []⟩, ⟨10, 1, []⟩, ⟨⟨10, 2, []⟩, -1, 0⟩⟩
  let again : SMsg := ⟨sbusManameis, 2, 5000, 6, [98], false⟩
  obtain ⟨d, reached, other, touched, goes⟩ : ∃ d,
      Run (Det exec) (init 1 10 4) [.recv env ⟨sbusManameis, 2, 5000, 5, [97], false⟩,
        .recv env (.ofError errcodePeerDisconnected 0 0 5)] d ∧
      ¬ d.isSelf again ∧ ¬ d.ReadsContacts env again ∧ (d.exec (.recv env again)).isSome :=
    ⟨_, run_det_iff.mpr rfl, by decide +kernel, by decide +kernel, by decide +kernel⟩
  obtain ⟨b, next⟩ := Option.isSome_iff_exists.mp goes
  have every := (all 1 10 4 _ b (reached.append (.cons next (.nil b)))).after reached
  exact touched (every.1 rfl other).1

/-- In every run of a bus, all messages of other buses are processed on records that
are in the table, and leave their senders with their sockets, exactly if every one of
them is settled. -/
theorem onContacts_iff_settled (serverIP : IP) (serverPort : Port) (mcsock : SocketType)
    {calls : List Call} (run : Run (Det exec) (init serverIP serverPort mcsock) calls b) :
    EachStep (Det exec) OnContacts (init serverIP serverPort mcsock) calls ↔
      EachStep (Det exec) Settled (init serverIP serverPort mcsock) calls :=
  run.eachStep_iff (I := fun b => Consistent b.scontacts) (R := fun _ _ => True) consistent_empty
    (eachStep_of_forall (fun _ _ => trivial) _ _)
    (fun _ _ _ ok _ settled taken => settled.consistent ok taken)
    (fun _ _ _ ok _ taken => onContacts_iff ok taken)

/-- An instance announces itself over multicast, and another one sends on its
connection a name that is taken, and is told so. -/
theorem onContacts_name_taken :
    ∃ calls b, Run (Det exec) (init 1 10 4) calls b ∧
      EachStep (Det exec) OnContacts (init 1 10 4) calls := by
  let env : StepEnv := ⟨⟨10, 0, []⟩, ⟨10, 1, []⟩, ⟨⟨10, 2, []⟩, -1, 0⟩⟩
  let calls : List Call :=
    [.setName [97], .recv env ⟨sbusManameis, 2, 20, 4, [98], false⟩,
     .recv env ⟨sbusManameis, 3, 5000, 5, [97], false⟩]
  obtain ⟨b, run⟩ : ∃ b, calls.foldlM exec (init 1 10 4) = some b :=
    Option.isSome_iff_exists.mp (by decide +kernel)
  have goes := run_det_iff.mpr run
  exact ⟨calls, b, goes, (onContacts_iff_settled 1 10 4 goes).mpr (by decide +kernel)⟩

end SBus

end LibSBus
