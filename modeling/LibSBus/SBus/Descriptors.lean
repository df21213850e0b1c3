import LibSBus.Lib.Handles
import LibSBus.SBus.Changes

/-!
The receiving thread and the application of one bus. The receiving thread closes
the descriptors of failed connections, accepts connections and queues what
`recv` returns; the application takes messages from the queue and sends. A
descriptor that is closed may be opened again before the application has read
that it was closed.

Connections are numbered as they are made. The numbers are not in the source:
they say which connection a descriptor is open on, which one a queued message is
about, and which one was recorded for a contact when its socket was last set.
`stcp_waitConnection` takes a connection for made when its time is up or it was
refused, so a descriptor may be open on a connection that is not established.
-/

namespace LibSBus

open Lib SContacts

/-- A queued message with the connection it is about; a multicast has none. -/
structure Queued where
  smsg : SMsg
  conn : Option Nat

/-- What was done with a connection: a write for a contact, on the connection
the descriptor was connected on, or the reset of a contact's socket by the error
of a lost one. Both come with the connection recorded for the contact. -/
inductive Use
  | wrote (connected recorded : Option Nat)
  | reset (lost recorded : Option Nat)

/-- The use concerns the connection recorded for the contact. -/
def Use.Proper : Use → Prop
  | .wrote connected recorded => connected ≠ none ∧ connected = recorded
  | .reset lost recorded => lost = recorded

instance (use : Use) : Decidable use.Proper := by
  cases use <;> unfold Use.Proper <;> infer_instance

structure Process where
  bus : SBus
  opened : SocketType → Option Nat
  established : Nat → Bool
  conns : Nat
  inq : List Queued
  recorded : SBusPeer → Option Nat
  uses : List Use

namespace SBus

/-- The contact whose socket a message sets: the one with its address, unless a
contact holds the socket already, or the one that is added for it. -/
def settles (b : SBus) (smsg : SMsg) : Option SBusPeer :=
  if smsg.error ∨ b.isSelf smsg ∨ smsg.socket = b.mcsock ∨
      b.scontacts.findFromSocket smsg.socket ≠ none then none
  else
    match b.scontacts.findIpPort smsg.ip smsg.port with
    | some p => some (b.scontacts.info p).peer
    | none =>
        if b.scontacts.findName b.name = none then some (b.scontacts.lastPeerId + 1) else none

end SBus

namespace Process

inductive Event
  | fail (fd : SocketType)
  | accept (fd : SocketType)
  | queue (smsg : SMsg)
  | recv (env : StepEnv) (established : Bool)
  | send (env : SendEnv) (established : Bool) (msgtag : Int) (peer : SBusPeer) (msg : CString)

def start (serverIP : IP) (serverPort : Port) (mcsock : SocketType) : Process :=
  { bus := SBus.init serverIP serverPort mcsock, opened := fun _ => none,
    established := fun _ => false, conns := 0, inq := [], recorded := fun _ => none, uses := [] }

/-- A descriptor is opened on a new connection. -/
def opening (s : Process) (fd : SocketType) (established : Bool) : Process :=
  { s with
    opened := Function.update s.opened fd (some s.conns)
    established := Function.update s.established s.conns established
    conns := s.conns + 1 }

/-- The kernel hands out any descriptor that is closed. -/
def opens (s : Process) (fd : SocketType) (established : Bool) : Option Process :=
  if 0 ≤ fd ∧ s.opened fd = none ∧ fd ≠ s.bus.mcsock then some (s.opening fd established)
  else none

/-- The connection a descriptor is connected on. -/
def connected (s : Process) (fd : SocketType) : Option Nat := (s.opened fd).filter s.established

/-- What the messenger does for a send to `peer`. -/
def perform (peer : SBusPeer) (established : Bool) (s : Process) : Action → Option Process
  | .connect _ _ fd =>
      if fd < 0 then some s
      else (s.opens fd established).map fun t =>
        { t with recorded := Function.update s.recorded peer (some s.conns) }
  | .multicast _ _ => some s
  | .unicast _ socket _ =>
      some { s with uses := s.uses ++ [.wrote (s.connected socket) (s.recorded peer)] }

/-- The connections recorded once a message is read. -/
def recordedBy (s : Process) (q : Queued) : SBusPeer → Option Nat :=
  match s.bus.settles q.smsg with
  | some settled => Function.update s.recorded settled q.conn
  | none => s.recorded

/-- The reset of a contact by an error, as `processSMsg` makes it. -/
def resets (s : Process) (q : Queued) : List Use :=
  if q.smsg.error then
    match s.bus.scontacts.findFromSocket q.smsg.socket with
    | some p => [.reset q.conn (s.recorded (s.bus.scontacts.info p).peer)]
    | none => []
  else []

def step (s : Process) : Event → Option Process
  | .fail fd => do
      let k ← s.opened fd
      some { s with
        opened := Function.update s.opened fd none
        inq := s.inq ++ [⟨.ofError errcodePeerDisconnected 0 0 fd, some k⟩] }
  | .accept fd => s.opens fd true
  | .queue smsg =>
      if smsg.error then none
      else if smsg.socket = s.bus.mcsock then some { s with inq := s.inq ++ [⟨smsg, none⟩] }
      else do
        let k ← s.opened smsg.socket
        some { s with inq := s.inq ++ [⟨smsg, some k⟩] }
  | .recv env established =>
      match s.inq with
      | [] => none
      | q :: rest => do
          let (_, b, actions) ← s.bus.processSMsg env q.smsg
          let peer := (s.bus.senderId env.lookup q.smsg).getD (-1)
          actions.foldlM (perform peer established)
            { s with
              bus := b
              inq := rest
              recorded := s.recordedBy q
              uses := s.uses ++ s.resets q }
  | .send env established msgtag peer msg =>
      match s.bus.send env msgtag peer msg with
      | (_, b, actions) => actions.foldlM (perform peer established) { s with bus := b }

/-- All uses so far were of the connection recorded for the contact. -/
def UsesRecorded (s : Process) : Prop := ∀ use ∈ s.uses, use.Proper

instance (s : Process) : Decidable s.UsesRecorded := inferInstanceAs (Decidable (∀ _ ∈ _, _))

/-- A contact's descriptor fails and is accepted on again before the application
has read of it, and a message to the contact goes to somebody else. -/
theorem write_to_stranger :
    ¬ ∀ serverIP serverPort mcsock events, 0 ≤ mcsock →
      Always (Det step) UsesRecorded (start serverIP serverPort mcsock) events := by
  intro always
  obtain ⟨s, run, astray⟩ : ∃ s, Run (Det step) (start 1 10 4)
      [.accept 5, .queue ⟨1, 2, 20, 5, [], false⟩,
       .recv ⟨⟨10, 0, []⟩, ⟨10, 1, []⟩, ⟨⟨10, 2, []⟩, -1, 0⟩⟩ true,
       .fail 5, .accept 5, .send ⟨⟨11, 3, []⟩, -1, 0⟩ true 7 1 [65]] s ∧ ¬ s.UsesRecorded :=
    ⟨_, run_det_iff.mpr rfl, by decide +kernel⟩
  exact astray (always 1 10 4 _ (by decide) _ List.prefix_rfl s run)

/-- What the notices in the queue are about. -/
def notices (inq : List Queued) : List (Notice SocketType Nat) :=
  inq.filterMap fun q => q.conn.map fun k => ⟨q.smsg.socket, k, q.smsg.error⟩

/-- No error is queued for the descriptor. -/
def NoError (inq : List Queued) (fd : SocketType) : Prop :=
  ∀ q ∈ inq, q.smsg.error = true → q.smsg.socket ≠ fd

instance (inq : List Queued) (fd : SocketType) : Decidable (NoError inq fd) :=
  inferInstanceAs (Decidable (∀ _ ∈ _, _))

/-- A send by the record of a contact is careful if no error is queued for the
descriptor it uses, and a connection it makes is established. -/
def Careful (inq : List Queued) (env : SendEnv) (established : Bool) (r : SPeerInfo) : Prop :=
  if 0 ≤ r.socket then NoError inq r.socket
  else r.ip ≠ -1 → 0 ≤ env.connect → NoError inq env.connect ∧ established = true

instance (inq : List Queued) (env : SendEnv) (established : Bool) (r : SPeerInfo) :
    Decidable (Careful inq env established r) := by
  unfold Careful
  infer_instance

end Process

namespace SBus

/-- The record of the contact a message is from, once its sender is found. -/
def senderRecord (b : SBus) (smsg : SMsg) : SPeerInfo :=
  match b.scontacts.findFromSocket smsg.socket with
  | some p => b.scontacts.info p
  | none =>
      match b.scontacts.findIpPort smsg.ip smsg.port with
      | some p =>
          if smsg.socket ≠ b.mcsock then { b.scontacts.info p with socket := smsg.socket }
          else b.scontacts.info p
      | none =>
          match b.scontacts.findName b.name with
          | some p => b.scontacts.info p
          | none => b.newcomer smsg

/-- The pointer `processSMsg` goes on with is good: `updateSocket` has not replaced
the record at it, or has put the new record where the old one was. -/
def KeepsPointer (b : SBus) (e : CallEnv) (smsg : SMsg) : Prop :=
  smsg.socket ≠ b.mcsock → b.scontacts.findFromSocket smsg.socket = none →
    ∀ p ∈ b.scontacts.findIpPort smsg.ip smsg.port,
      (b.scontacts.erase e.now p).heap.place e.addr = p

instance (b : SBus) (e : CallEnv) (smsg : SMsg) : Decidable (b.KeepsPointer e smsg) := by
  unfold KeepsPointer
  infer_instance

end SBus

namespace Process

/-- When a step is taken with care: what it sends, also as an automatic reply,
is sent with care, and a name is written down through a good pointer. -/
def TakenWithCare (s : Process) : Event → Prop
  | .send env established _ peer _ =>
      ∀ p ∈ s.bus.scontacts.findPeer peer,
        Careful s.inq env established (s.bus.scontacts.info p)
  | .recv env established =>
      match s.inq with
      | [] => True
      | q :: rest =>
          q.smsg.error = false → ¬ s.bus.isSelf q.smsg →
            (s.bus.replyTag q.smsg ≠ none →
              Careful rest env.reply established (s.bus.senderRecord q.smsg)) ∧
            (q.smsg.msgtag = sbusManameis ∨ q.smsg.msgtag = sbusNametaken →
              s.bus.KeepsPointer env.lookup q.smsg)
  | _ => True

instance (s : Process) (event : Event) : Decidable (s.TakenWithCare event) := by
  cases event with
  | recv env established =>
      unfold TakenWithCare
      cases s.inq <;> infer_instance
  | _ => unfold TakenWithCare; infer_instance

end Process

end LibSBus
