import Mathlib.Data.Fintype.Basic
import Mathlib.Data.List.FinRange
import LibSBus.SBus.Changes

/-!
Several instances and the messages between them. A multicast reaches every other
instance once, in any order; connecting and sending over TCP succeed. A frame
carries the address of its sender: over multicast the port its TCP server
listens on, over TCP the local port of the end it was written to, which is an
ephemeral one at the side that connected.

An address nobody listens at may still be connected to. What is there is outside
the network, and nothing comes back from it.
-/

namespace LibSBus

open SContacts

/-- Where the instances are. `ip` is the address an instance takes for its own, and
`source` the one the others see on what it sends. On a machine with several interfaces
these can be different ones; here each machine has one interface. The port is the same
seen by the instance, by multicast and by TCP, and different instances have different
addresses. -/
structure Site (n : Nat) where
  ip : Fin n → IP
  source : Fin n → IP
  port : Fin n → Port
  mcsock : Fin n → SocketType
  oneInterface : ∀ i, source i = ip i
  distinct : ∀ i j, ip i = ip j → port i = port j → i = j
  located : ∀ i, ip i ≠ -1
  valid : ∀ i, mcsock i ≠ invalidSocket

/-- One end of a connection: who is at the other end, on which descriptor. -/
structure End (n : Nat) where
  remote : Option (Fin n)
  remoteFd : SocketType
  localPort : Port
deriving DecidableEq

/-- A message on its way. It is `contested` if it announces a name its receiver
held when it was sent. -/
structure Packet (n : Nat) where
  src : Fin n
  dst : Fin n
  smsg : SMsg
  contested : Bool
deriving DecidableEq

/-- `named` is the name of the last `setName`. -/
structure Net (n : Nat) where
  inst : Fin n → SBus
  named : Fin n → Option CString
  ends : Fin n → SocketType → Option (End n)
  flight : List (Packet n)

/-- What the kernels choose for a new connection: the port of this end, and the
descriptor at the other. -/
structure Wire where
  ephemeral : Port
  accepted : SocketType

variable {n : Nat}

/-- Who listens at an address. -/
def Site.at (s : Site n) (ip : IP) (port : Port) : Option (Fin n) :=
  (List.finRange n).find? fun j => s.ip j = ip ∧ s.port j = port

theorem Site.at_eq_some_iff (s : Site n) {ip : IP} {port : Port} {j : Fin n} :
    s.at ip port = some j ↔ s.ip j = ip ∧ s.port j = port := by
  unfold Site.at
  constructor
  · intro found
    simpa using List.find?_some found
  · rintro ⟨rfl, rfl⟩
    cases found : (List.finRange n).find? fun k => s.ip k = s.ip j ∧ s.port k = s.port j with
    | none =>
        rw [List.find?_eq_none] at found
        exact absurd (found j (List.mem_finRange j)) (by simp)
    | some k =>
        have same := List.find?_some found
        simp only [decide_eq_true_eq] at same
        rw [s.distinct k j same.1 same.2]

namespace Net

def start (s : Site n) : Net n :=
  { inst := fun i => SBus.init (s.ip i) (s.port i) (s.mcsock i), named := fun _ => none,
    ends := fun _ _ => none, flight := [] }

def setInst (net : Net n) (i : Fin n) (b : SBus) : Net n :=
  { net with inst := Function.update net.inst i b }

def setEnd (net : Net n) (i : Fin n) (fd : SocketType) (e : End n) : Net n :=
  { net with ends := fun j x => if j = i ∧ x = fd then some e else net.ends j x }

/-- A multicast of instance `i`, on its way to all others. -/
def multicast (s : Site n) (net : Net n) (i : Fin n) (contested : Fin n → Bool) (msgtag : Int)
    (msg : CString) : Net n :=
  { net with
    flight := net.flight ++ ((List.finRange n).filter (· ≠ i)).map fun j =>
      { src := i, dst := j, contested := contested j
        smsg := { msgtag := toShort msgtag, ip := s.source i, port := s.port i,
                  socket := s.mcsock j, msg, error := false } } }

/-- A frame written by instance `i` to one of its descriptors. -/
def unicast (s : Site n) (net : Net n) (i : Fin n) (msgtag : Int) (socket : SocketType)
    (msg : CString) : Net n :=
  match net.ends i socket with
  | some { remote := some j, remoteFd, localPort } =>
      { net with
        flight := net.flight ++
          [{ src := i, dst := j, contested := false
             smsg := { msgtag := toShort msgtag, ip := s.source i, port := localPort,
                       socket := remoteFd, msg, error := false } }] }
  | _ => net

/-- A connection made by instance `i`. The kernels give descriptors that are not
in use and a port nobody of the same address listens on. -/
def connect (s : Site n) (net : Net n) (i : Fin n) (w : Wire) (ip : IP) (port : Port)
    (fd : SocketType) : Option (Net n) :=
  if 0 ≤ fd ∧ net.ends i fd = none ∧ fd ≠ s.mcsock i ∧ s.at (s.ip i) w.ephemeral = none then
    let remote := s.at ip port
    let net := net.setEnd i fd { remote, remoteFd := w.accepted, localPort := w.ephemeral }
    match remote with
    | none => some net
    | some j =>
        if 0 ≤ w.accepted ∧ net.ends j w.accepted = none ∧ w.accepted ≠ s.mcsock j then
          some (net.setEnd j w.accepted { remote := some i, remoteFd := fd, localPort := s.port j })
        else none
  else none

/-- What the messenger of instance `i` does when asked. -/
def perform (s : Site n) (i : Fin n) (contested : Fin n → Bool) (w : Wire) (net : Net n) :
    Action → Option (Net n)
  | .connect ip port fd => net.connect s i w ip port fd
  | .multicast msgtag msg => some (net.multicast s i contested msgtag msg)
  | .unicast msgtag socket msg => some (net.unicast s i msgtag socket msg)

inductive Event (n : Nat)
  | setName (i : Fin n) (name : CString)
  | multicast (i : Fin n) (msgtag : Int) (msg : CString)
  | deliver (pk : Packet n) (env : StepEnv) (w : Wire)

/-- The application of an instance sets its name or sends to all, or an instance
processes a message that has reached it. -/
def step (s : Site n) (net : Net n) : Event n → Option (Net n)
  | .setName i name =>
      let r := (net.inst i).setName name
      -- no connection is made here, so the wire does not matter
      r.2.foldlM (perform s i (fun j => net.named j = some name) ⟨0, 0⟩)
        { net.setInst i r.1 with named := Function.update net.named i (some name) }
  | .multicast i msgtag msg => some (net.multicast s i (fun _ => false) msgtag msg)
  | .deliver pk env w =>
      if pk ∈ net.flight then
        ((net.inst pk.dst).processSMsg env pk.smsg).bind fun (_, b, actions) =>
          actions.foldlM (perform s pk.dst (fun _ => false) w)
            { net.setInst pk.dst b with flight := net.flight.erase pk }
      else none

/-- The network as it grows when actions are performed: no end is lost, and
messages are added. -/
structure Grows (net t : Net n) : Prop where
  inst : t.inst = net.inst
  named : t.named = net.named
  ends : ∀ i fd e, net.ends i fd = some e → t.ends i fd = some e
  flight : ∃ sent, t.flight = net.flight ++ sent

variable {s : Site n} {net t u : Net n} {i : Fin n} {w : Wire} {contested : Fin n → Bool}
  {action : Action} {actions : List Action} {fd : SocketType} {ip : IP} {port : Port}

theorem Grows.refl (net : Net n) : Grows net net :=
  ⟨rfl, rfl, fun _ _ _ => id, [], (List.append_nil _).symm⟩

theorem Grows.trans (first : Grows net t) (second : Grows t u) : Grows net u := by
  obtain ⟨sent, flight⟩ := first.flight
  obtain ⟨sent', flight'⟩ := second.flight
  refine ⟨second.inst.trans first.inst, second.named.trans first.named,
    fun i fd e known => second.ends i fd e (first.ends i fd e known), sent ++ sent', ?_⟩
  rw [flight', flight, List.append_assoc]

theorem grows_setEnd {e : End n} (free : net.ends i fd = none) : Grows net (net.setEnd i fd e) := by
  refine ⟨rfl, rfl, fun j x e' known => ?_, [], (List.append_nil _).symm⟩
  unfold setEnd
  dsimp only
  split
  case isTrue here =>
    rw [here.1, here.2, free] at known
    cases known
  case isFalse elsewhere => exact known

/-- What a connect leaves: a new end at this side that leads to whoever listens
at the address, and if that is an instance, an end there that leads back. -/
theorem connect_eq_some (call : net.connect s i w ip port fd = some t) :
    0 ≤ fd ∧ net.ends i fd = none ∧ fd ≠ s.mcsock i ∧ s.at (s.ip i) w.ephemeral = none ∧
      ∃ net', net' = net.setEnd i fd ⟨s.at ip port, w.accepted, w.ephemeral⟩ ∧
        ((s.at ip port = none ∧ t = net') ∨
          ∃ j, s.at ip port = some j ∧ net'.ends j w.accepted = none ∧
            w.accepted ≠ s.mcsock j ∧
            t = net'.setEnd j w.accepted ⟨some i, fd, s.port j⟩) := by
  unfold connect at call
  obtain ⟨⟨valid, free, own, unused⟩, call⟩ := Option.ite_none_right_eq_some.mp call
  refine ⟨valid, free, own, unused, _, rfl, ?_⟩
  dsimp only at call
  split at call
  case h_1 nobody => exact .inl ⟨nobody, (Option.some.inj call).symm⟩
  case h_2 j listens =>
    obtain ⟨⟨_, fresh, other⟩, call⟩ := Option.ite_none_right_eq_some.mp call
    exact .inr ⟨j, listens, fresh, other, (Option.some.inj call).symm⟩

theorem grows_connect (call : net.connect s i w ip port fd = some t) : Grows net t := by
  obtain ⟨_, free, _, _, _, rfl, ⟨_, rfl⟩ | ⟨j, _, fresh, _, rfl⟩⟩ := connect_eq_some call
  · exact grows_setEnd free
  · exact (grows_setEnd free).trans (grows_setEnd fresh)

theorem connect_flight (call : net.connect s i w ip port fd = some t) :
    t.flight = net.flight := by
  obtain ⟨_, _, _, _, _, rfl, ⟨_, rfl⟩ | ⟨_, _, _, _, rfl⟩⟩ := connect_eq_some call <;> rfl

theorem setEnd_ends {e e' : End n} {k : Fin n} {x : SocketType}
    (known : (net.setEnd i fd e).ends k x = some e') :
    (k = i ∧ x = fd ∧ e' = e) ∨ net.ends k x = some e' := by
  unfold setEnd at known
  dsimp only at known
  split at known
  case isTrue here => exact .inl ⟨here.1, here.2, (Option.some.inj known).symm⟩
  case isFalse elsewhere => exact .inr known

/-- The end a connect makes leads to whoever listens at the address, and an
instance there has an end that leads back. -/
theorem connect_ends (call : net.connect s i w ip port fd = some t) :
    t.ends i fd = some ⟨s.at ip port, w.accepted, w.ephemeral⟩ ∧
      ∀ j, s.at ip port = some j → t.ends j w.accepted = some ⟨some i, fd, s.port j⟩ := by
  obtain ⟨_, _, _, _, _, rfl, ⟨nobody, rfl⟩ | ⟨j, listens, fresh, _, rfl⟩⟩ := connect_eq_some call
  · exact ⟨by simp [setEnd], fun j listens => by rw [nobody] at listens; cases listens⟩
  · refine ⟨(grows_setEnd fresh).ends i fd _ (by simp [setEnd]), fun k other => ?_⟩
    obtain rfl := Option.some.inj (listens.symm.trans other)
    simp [setEnd]

/-- Those two are the only new ends. -/
theorem connect_new_ends (call : net.connect s i w ip port fd = some t) {k : Fin n}
    {x : SocketType} {e : End n} (known : t.ends k x = some e) :
    net.ends k x = some e ∨
    (k = i ∧ x = fd ∧ e = ⟨s.at ip port, w.accepted, w.ephemeral⟩) ∨
    (s.at ip port = some k ∧ x = w.accepted ∧ x ≠ s.mcsock k ∧ e = ⟨some i, fd, s.port k⟩) := by
  obtain ⟨_, _, _, _, _, rfl, ⟨_, rfl⟩ | ⟨j, listens, _, other, rfl⟩⟩ := connect_eq_some call
  · rcases setEnd_ends known with mine | old
    · exact .inr (.inl mine)
    · exact .inl old
  · rcases setEnd_ends known with ⟨rfl, rfl, rfl⟩ | before
    · exact .inr (.inr ⟨listens, rfl, other, rfl⟩)
    · rcases setEnd_ends before with mine | old
      · exact .inr (.inl mine)
      · exact .inl old

theorem unicast_cases (s : Site n) (net : Net n) (i : Fin n) (msgtag : Int) (socket : SocketType)
    (msg : CString) :
    (∃ j e, net.ends i socket = some e ∧ e.remote = some j ∧
      net.unicast s i msgtag socket msg = { net with
        flight := net.flight ++ [⟨i, j, ⟨toShort msgtag, s.ip i, e.localPort, e.remoteFd, msg,
          false⟩, false⟩] }) ∨
    (¬ ∃ j e, net.ends i socket = some e ∧ e.remote = some j) ∧
      net.unicast s i msgtag socket msg = net := by
  unfold unicast
  rw [s.oneInterface]
  split
  case h_1 j remoteFd localPort known => exact .inl ⟨j, _, known, rfl, rfl⟩
  case h_2 unknown =>
    refine .inr ⟨?_, rfl⟩
    rintro ⟨j, ⟨remote, remoteFd, localPort⟩, known, rfl⟩
    exact unknown j remoteFd localPort known

theorem grows_perform (call : net.perform s i contested w action = some t) : Grows net t := by
  cases action with
  | connect ip port fd => exact grows_connect call
  | multicast msgtag msg =>
      obtain rfl := Option.some.inj call
      exact ⟨rfl, rfl, fun _ _ _ => id, _, rfl⟩
  | unicast msgtag socket msg =>
      obtain rfl := Option.some.inj call
      rcases unicast_cases s net i msgtag socket msg with ⟨j, e, _, _, same⟩ | ⟨_, same⟩
      · rw [same]
        exact ⟨rfl, rfl, fun _ _ _ => id, _, rfl⟩
      · rw [same]
        exact .refl net

theorem grows_performs (call : actions.foldlM (perform s i contested w) net = some t) :
    Grows net t := by
  induction actions generalizing net with
  | nil =>
      obtain rfl := Option.some.inj call
      exact .refl net
  | cons action actions ih =>
      rw [List.foldlM_cons] at call
      obtain ⟨u, first, rest⟩ := Option.bind_eq_some_iff.mp call
      exact (grows_perform first).trans (ih rest)

end Net

end LibSBus
