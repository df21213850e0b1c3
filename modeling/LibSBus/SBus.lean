import LibSBus.SContacts

/-!
`SBus`: what is done with a message that was received, and how a message gets to
a peer. What the messenger is asked to do is returned as a list of actions, and
what it answers comes with the call, so that the tables can be followed without
the sockets.

A pointer that `updateSocket` has made stale is kept in use where the source
keeps it in use.
-/

namespace LibSBus

/-- What an `SBus` asks of its messenger. A `connect` comes with its result. -/
inductive Action
  | connect (ip : IP) (port : Port) (fd : SocketType)
  | multicast (msgtag : Int) (msg : CString)
  | unicast (msgtag : Int) (socket : SocketType) (msg : CString)
deriving DecidableEq

/-- What a unicast send finds: what `connect` and `SMessenger::send` return. -/
structure SendEnv where
  call : CallEnv
  connect : SocketType
  sent : Int

/-- What processing one message finds at each of its calls on the contacts. -/
structure StepEnv where
  lookup : CallEnv
  rename : CallEnv
  reply : SendEnv

structure SBus where
  name : CString
  scontacts : SContacts
  serverIP : IP
  serverPort : Port
  mcsock : SocketType

namespace SBus

/-- `SBus::init`, with the name of `setDefaultSafeName`. -/
def init (serverIP : IP) (serverPort : Port) (mcsock : SocketType) : SBus :=
  { name := safeName serverIP serverPort, scontacts := .empty, serverIP, serverPort, mcsock }

def setName (b : SBus) (name : CString) : SBus × List Action :=
  ({ b with name }, [.multicast sbusManameis name])

/-- The getters called on the record at `p`. -/
def touch (b : SBus) (now : Int) (p : Ptr) : SBus :=
  { b with scontacts := b.scontacts.touch now p }

def peer2Socket (b : SBus) (env : SendEnv) (peer : SBusPeer) :
    SocketType × SBus × List Action :=
  match b.scontacts.findPeer peer with
  | none => (-1, b, [])
  | some peerInfo =>
      let r := b.scontacts.info peerInfo
      let b := b.touch env.call.now peerInfo
      if r.socket ≥ 0 then (r.socket, b, [])
      else if r.ip ≠ -1 then
        let actions := [Action.connect r.ip r.port env.connect]
        if env.connect ≥ 0 then
          let updated := b.scontacts.updateSocket env.call peerInfo env.connect
          (env.connect, { b with scontacts := updated.2 }, actions)
        else (env.connect, b, actions)
      else if r.name.length > 0 then (-1, b, [.multicast sbusFind r.name])
      else (-1, b, [])

/-- `SBus::send` to one peer. -/
def send (b : SBus) (env : SendEnv) (msgtag : Int) (peer : SBusPeer) (msg : CString) :
    Int × SBus × List Action :=
  match b.peer2Socket env peer with
  | (socket, b, actions) =>
      if socket < 0 then (-1, b, actions)
      else (env.sent, b, actions ++ [.unicast msgtag socket msg])

/-- `processSMsg`, lines 249 to 265: which contact a message is from. -/
def sender (b : SBus) (e : CallEnv) (smsg : SMsg) : Option (Ptr × SBus) :=
  match b.scontacts.findFromSocket smsg.socket with
  | some peerInfo => some (peerInfo, b)
  | none =>
      match b.scontacts.findIpPort smsg.ip smsg.port with
      | none =>
          let sock := if smsg.socket ≠ b.mcsock then smsg.socket else invalidSocket
          (b.scontacts.add e sock smsg.ip smsg.port b.name).map fun (peerInfo, scontacts) =>
            (peerInfo, { b with scontacts })
      | some peerInfo =>
          if smsg.socket ≠ b.mcsock then
            let updated := b.scontacts.updateSocket e peerInfo smsg.socket
            some (peerInfo, { b with scontacts := updated.2 })
          else some (peerInfo, b)

/-- The id `processSMsg` takes a message to be from. -/
def senderId (b : SBus) (e : CallEnv) (smsg : SMsg) : Option SBusPeer :=
  (b.sender e smsg).map fun (peerInfo, b) => (b.scontacts.info peerInfo).peer

/-- `processSMsg`, lines 268 to 296: what is done with a message from `peer`,
whose record is taken to be at `peerInfo`. -/
def handle (b : SBus) (env : StepEnv) (smsg : SMsg) (peerInfo : Ptr) (peer : SBusPeer) :
    SBusPeer × SBus × List Action :=
  if smsg.msgtag ≤ 0 then
    if smsg.msgtag = sbusFind then
      if b.name = smsg.msg then
        let (_, b, actions) := b.send env.reply sbusManameis peer b.name
        (-1, b, actions)
      else (-1, b, [])
    else if smsg.msgtag = sbusManameis then
      let renamed := b.scontacts.updateName env.rename peerInfo smsg.msg
      let b := { b with scontacts := renamed.2 }
      if b.name = smsg.msg then
        let (_, b, actions) := b.send env.reply sbusNametaken peer b.name
        (peer, b, actions)
      else (peer, b, [])
    else if smsg.msgtag = sbusNametaken then
      let renamed := b.scontacts.updateName env.rename peerInfo smsg.msg
      (peer, { b with scontacts := renamed.2 }, [])
    else (peer, b, [])
  else (peer, b, [])

def isSelf (b : SBus) (smsg : SMsg) : Prop :=
  smsg.ip = b.serverIP ∧ smsg.port = b.serverPort

instance (b : SBus) (smsg : SMsg) : Decidable (b.isSelf smsg) :=
  inferInstanceAs (Decidable (_ ∧ _))

/-- `processSMsg` of the report of a lost connection. -/
def processError (b : SBus) (e : CallEnv) (smsg : SMsg) : SBus :=
  match b.scontacts.findFromSocket smsg.socket with
  | some peerInfo =>
      let updated := b.scontacts.updateSocket e peerInfo invalidSocket
      { b with scontacts := updated.2.touch e.now updated.1 }
  | none => b

def processSMsg (b : SBus) (env : StepEnv) (smsg : SMsg) :
    Option (SBusPeer × SBus × List Action) :=
  if smsg.error then some (-1, b.processError env.lookup smsg, [])
  else if b.isSelf smsg then some (-1, b, [])
  else
    (b.sender env.lookup smsg).map fun (peerInfo, b) =>
      let peer := (b.scontacts.info peerInfo).peer
      (b.touch env.lookup.now peerInfo).handle env smsg peerInfo peer

end SBus

end LibSBus
