import LibSBus.SBus.Changes

/-!
What an `SBus` does to its contacts, as the list of its calls on the table. The
lists follow `peer2Socket` and `processSMsg` line by line, and making the calls in
order leaves the table that `send` and `processSMsg` leave. A property of the calls
is so a property of everything that happens to a contact.
-/

namespace LibSBus

open Lib

namespace SContacts

variable {c : SContacts} {e : CallEnv} {p : Ptr}

/-- One call, as the bus makes it: a record that an update has replaced is updated
again where `processSMsg` does so. -/
def execAny (c : SContacts) : Op → Option SContacts
  | .add e socket ip port name => (c.add e socket ip port name).map Prod.snd
  | .updateSocket e p socket => some (c.updateSocket e p socket).2
  | .updateName e p name => some (c.updateName e p name).2
  | .doCleanUp now => some (c.doCleanUp now)
  | .getter now p => some (c.touch now p)

abbrev execAll (c : SContacts) (ops : List Op) : Option SContacts := ops.foldlM execAny c

theorem execAll_append {ops ops' : List Op} {d : SContacts} (first : c.execAll ops = some d) :
    c.execAll (ops ++ ops') = d.execAll ops' := by
  rw [execAll, List.foldlM_append, show ops.foldlM execAny c = some d from first]
  rfl

end SContacts

namespace SBus

open SContacts

variable {b b' d : SBus} {e : CallEnv} {env : StepEnv} {smsg : SMsg} {p : Ptr}
  {peer id : SBusPeer} {msgtag res : Int} {msg : CString} {actions : List Action}

def peer2SocketCalls (b : SBus) (env : SendEnv) (peer : SBusPeer) : List Op :=
  match b.scontacts.findPeer peer with
  | none => []
  | some peerInfo =>
      let r := b.scontacts.info peerInfo
      .getter env.call.now peerInfo ::
        if r.socket < 0 ∧ r.ip ≠ -1 ∧ 0 ≤ env.connect then
          [.updateSocket env.call peerInfo env.connect]
        else []

def senderCalls (b : SBus) (e : CallEnv) (smsg : SMsg) : List Op :=
  match b.scontacts.findFromSocket smsg.socket with
  | some _ => []
  | none =>
      match b.scontacts.findIpPort smsg.ip smsg.port with
      | none => [.add e (b.recordedSocket smsg) smsg.ip smsg.port b.name]
      | some peerInfo =>
          if smsg.socket ≠ b.mcsock then [.updateSocket e peerInfo smsg.socket] else []

def handleCalls (b : SBus) (env : StepEnv) (smsg : SMsg) (peerInfo : Ptr) (peer : SBusPeer) :
    List Op :=
  (if smsg.msgtag = sbusManameis ∨ smsg.msgtag = sbusNametaken then
    [.updateName env.rename peerInfo smsg.msg] else []) ++
  match b.replyTag smsg with
  | none => []
  | some _ => (b.renamed env.rename smsg peerInfo).peer2SocketCalls env.reply peer

def processErrorCalls (b : SBus) (e : CallEnv) (smsg : SMsg) : List Op :=
  match b.scontacts.findFromSocket smsg.socket with
  | some peerInfo =>
      [.updateSocket e peerInfo invalidSocket,
       .getter e.now (b.scontacts.updateSocket e peerInfo invalidSocket).1]
  | none => []

def processSMsgCalls (b : SBus) (env : StepEnv) (smsg : SMsg) : List Op :=
  if smsg.error then b.processErrorCalls env.lookup smsg
  else if b.isSelf smsg then []
  else
    b.senderCalls env.lookup smsg ++
      match b.sender env.lookup smsg with
      | none => []
      | some (peerInfo, d) =>
          .getter env.lookup.now peerInfo ::
            (d.touch env.lookup.now peerInfo).handleCalls env smsg peerInfo
              (d.scontacts.info peerInfo).peer

theorem send_calls {env : SendEnv} (call : b.send env msgtag peer msg = (res, b', actions)) :
    b.scontacts.execAll (b.peer2SocketCalls env peer) = some b'.scontacts := by
  unfold peer2SocketCalls
  rcases send_cases env msgtag msg call with ⟨missing, rfl, _⟩ | ⟨p, found, rest⟩
  · rw [missing]
    rfl
  · rw [found]
    dsimp only
    rcases rest with ⟨held, rfl, _⟩ | ⟨shut, located, made, rfl, _⟩ |
      ⟨_, _, failed, rfl, _⟩ | ⟨_, lost, rfl, _⟩
    · rw [if_neg fun connects => Int.not_lt.mpr held connects.1]
      rfl
    · rw [if_pos ⟨shut, located, made⟩]
      rfl
    · rw [if_neg fun connects => Int.not_le.mpr failed connects.2.2]
      rfl
    · rw [if_neg fun connects => connects.2.1 lost]
      rfl

theorem sender_calls (call : b.sender e smsg = some (p, d)) :
    b.scontacts.execAll (b.senderCalls e smsg) = some d.scontacts := by
  unfold senderCalls
  rcases sender_cases call with ⟨held, same⟩ | ⟨unheld, found, same⟩ |
    ⟨unheld, missing, named, same⟩ | ⟨unheld, missing, unnamed, more, _, same⟩
  · rw [held, same]
    rfl
  · rw [unheld, found, same]
    dsimp only
    split <;> rfl
  · rw [unheld, missing, same]
    simp [execAll, SContacts.execAny, add, missing, named]
  · have new : b.scontacts.add e (b.recordedSocket smsg) smsg.ip smsg.port b.name = _ :=
      add_of_new missing unnamed more
    rw [bump_lastPeerId] at new
    rw [unheld, missing, same]
    simp [execAll, SContacts.execAny, new, newcomer]

theorem renamed_calls (b : SBus) (e : CallEnv) (smsg : SMsg) (p : Ptr) :
    b.scontacts.execAll (if smsg.msgtag = sbusManameis ∨ smsg.msgtag = sbusNametaken then
      [.updateName e p smsg.msg] else []) = some (b.renamed e smsg p).scontacts := by
  unfold renamed
  split <;> rfl

theorem handle_calls (call : b.handle env smsg p peer = (id, b', actions)) :
    b.scontacts.execAll (b.handleCalls env smsg p peer) = some b'.scontacts := by
  unfold handleCalls
  rw [execAll_append (b.renamed_calls env.rename smsg p)]
  rcases handle_cases call with ⟨silent, rfl, _⟩ | ⟨tag, res, reply, sent⟩
  · rw [silent]
    rfl
  · rw [reply]
    exact send_calls sent

theorem processError_calls (b : SBus) (e : CallEnv) (smsg : SMsg) :
    b.scontacts.execAll (b.processErrorCalls e smsg) = some (b.processError e smsg).scontacts := by
  unfold processErrorCalls processError
  cases b.scontacts.findFromSocket smsg.socket <;> rfl

/-- Making the calls of `processSMsg` in order leaves the table it leaves. -/
theorem processSMsg_calls (call : b.processSMsg env smsg = some (id, b', actions)) :
    b.scontacts.execAll (b.processSMsgCalls env smsg) = some b'.scontacts := by
  unfold processSMsgCalls
  rcases processSMsg_cases call with ⟨lost, _, rfl, _⟩ | ⟨data, own, _, rfl, _⟩ |
    ⟨data, other, p, d, found, handled⟩
  · rw [if_pos lost]
    exact b.processError_calls env.lookup smsg
  · rw [if_neg (ne_true_of_eq_false data), if_pos own]
    rfl
  · rw [if_neg (ne_true_of_eq_false data), if_neg other, execAll_append (sender_calls found), found]
    exact handle_calls handled

end SBus

end LibSBus
