import LibSBus.SBus.NameTaken
import LibSBus.SBus.Entries
import LibSBus.SBus.Senders

/-!
The network with a log of it: who has announced which name, and which
connections were made. Here the applications send to single peers, too. The
kernels make every connection from a port that is not in use between the same
two ends.

A contact whose address nobody listens at was met on a connection made from that
address. There is one, so all its records show the same descriptor, and a
message to it goes to the same instance whichever of them is used.
-/

namespace LibSBus

open Lib SContacts

variable {n : Nat}

/-- A connection: where it comes from, and its descriptor at the end that accepted it. -/
structure Link (n : Nat) where
  ip : IP
  port : Port
  dst : Fin n
  fd : SocketType
deriving DecidableEq

/-- `announced` has the MANAMEIS frames that were sent, by sender and name. -/
structure Talk (n : Nat) where
  net : Net n
  announced : List (Fin n × CString)
  links : List (Link n)

/-- Two connections between the same ends. -/
def Link.SameEnds (l l' : Link n) : Prop := l.ip = l'.ip ∧ l.port = l'.port ∧ l.dst = l'.dst

instance (l l' : Link n) : Decidable (l.SameEnds l') := inferInstanceAs (Decidable (_ ∧ _ ∧ _))

namespace Talk

/-- What happens in the network, or an application sends to one peer. -/
inductive Event (n : Nat)
  | net (event : Net.Event n)
  | send (i : Fin n) (env : SendEnv) (w : Wire) (msgtag : Int) (peer : SBusPeer) (msg : CString)

/-- Who is asked to act, with what the kernels choose for it, and what is asked. -/
def asked (net : Net n) : Event n → Fin n × Wire × List Action
  | .net (.setName i name) => (i, ⟨0, 0⟩, ((net.inst i).setName name).2)
  | .net (.multicast i msgtag msg) => (i, ⟨0, 0⟩, [.multicast msgtag msg])
  | .net (.deliver pk env w) =>
      (pk.dst, w, ((net.inst pk.dst).processSMsg env pk.smsg).elim [] fun r => r.2.2)
  | .send i env w msgtag peer msg => (i, w, ((net.inst i).send env msgtag peer msg).2.2)

def move (s : Site n) (net : Net n) : Event n → Option (Net n)
  | .net event => net.step s event
  | .send i env w msgtag peer msg =>
      let r := (net.inst i).send env msgtag peer msg
      r.2.2.foldlM (Net.perform s i (fun _ => false) w) (net.setInst i r.2.1)

/-- The name an action announces. -/
def announcement (i : Fin n) : Action → Option (Fin n × CString)
  | .connect _ _ _ => none
  | .multicast msgtag msg => if toShort msgtag = sbusManameis then some (i, msg) else none
  | .unicast msgtag _ msg => if toShort msgtag = sbusManameis then some (i, msg) else none

/-- The connection an action makes. -/
def link (s : Site n) (i : Fin n) (w : Wire) : Action → Option (Link n)
  | .connect ip port _ => (s.at ip port).map fun j => ⟨s.ip i, w.ephemeral, j, w.accepted⟩
  | .multicast _ _ => none
  | .unicast _ _ _ => none

def start (s : Site n) : Talk n := { net := Net.start s, announced := [], links := [] }

def step (s : Site n) (t : Talk n) (event : Event n) : Option (Talk n) :=
  let (i, w, actions) := asked t.net event
  let links := actions.filterMap (link s i w)
  if ∀ l ∈ links, ∀ l' ∈ t.links, ¬ l.SameEnds l' then
    (move s t.net event).map fun net =>
      { net, announced := t.announced ++ actions.filterMap (announcement i)
        links := t.links ++ links }
  else none

variable {s : Site n} {net net' : Net n} {i : Fin n} {w : Wire} {contested : Fin n → Bool}
  {action : Action} {actions : List Action} {announced announced' : List (Fin n × CString)}
  {links links' : List (Link n)} {ip : IP} {port : Port} {socket fd : SocketType}

/-- Who is at the other end of a descriptor. -/
def reach (net : Net n) (i : Fin n) (socket : SocketType) : Option (Fin n) :=
  (net.ends i socket).bind End.remote

theorem connect_fds (call : net.connect s i w ip port fd = some net') :
    0 ≤ fd ∧ ∀ j, s.at ip port = some j → 0 ≤ w.accepted := by
  unfold Net.connect at call
  obtain ⟨⟨valid, _⟩, call⟩ := Option.ite_none_right_eq_some.mp call
  refine ⟨valid, fun j listens => ?_⟩
  dsimp only at call
  rw [listens] at call
  obtain ⟨⟨accepted, _⟩, _⟩ := Option.ite_none_right_eq_some.mp call
  exact accepted

/-- The log accounts for the network: an end with a port nobody listens on is that
of a connection in it, and so is what a frame on a connection shows; every
announcement on its way is in it. -/
structure Traced (s : Site n) (announced : List (Fin n × CString)) (links : List (Link n))
    (net : Net n) : Prop where
  fds : ∀ i fd e, net.ends i fd = some e → 0 ≤ fd
  ends : ∀ i fd e j, net.ends i fd = some e → e.remote = some j →
    s.at (s.ip i) e.localPort = none → ⟨s.ip i, e.localPort, j, e.remoteFd⟩ ∈ links
  frames : ∀ pk ∈ net.flight, pk.smsg.socket ≠ s.mcsock pk.dst →
    s.at pk.smsg.ip pk.smsg.port = none →
      ⟨pk.smsg.ip, pk.smsg.port, pk.dst, pk.smsg.socket⟩ ∈ links
  announced : ∀ pk ∈ net.flight, pk.smsg.msgtag = sbusManameis →
    (pk.src, pk.smsg.msg) ∈ announced

theorem traced_start : Traced s [] [] (Net.start s) where
  fds i fd e known := by cases known
  ends i fd e j known := by cases known
  frames pk mem := by cases mem
  announced pk mem := by cases mem

theorem Traced.mono (traced : Traced s announced links net) (more : announced ⊆ announced')
    (further : links ⊆ links') : Traced s announced' links' net where
  fds := traced.fds
  ends i fd e j known remote unused := further (traced.ends i fd e j known remote unused)
  frames pk mem own unused := further (traced.frames pk mem own unused)
  announced pk mem announces := more (traced.announced pk mem announces)

/-- It does so when messages are taken from their way, too. -/
theorem Traced.fewer (traced : Traced s announced links net) (ends : net'.ends = net.ends)
    (flight : net'.flight ⊆ net.flight) : Traced s announced links net' where
  fds i fd e known := traced.fds i fd e (ends ▸ known)
  ends i fd e j known := traced.ends i fd e j (ends ▸ known)
  frames pk mem := traced.frames pk (flight mem)
  announced pk mem := traced.announced pk (flight mem)

theorem Traced.connect (traced : Traced s announced links net)
    (logged : ∀ j, s.at ip port = some j → ⟨s.ip i, w.ephemeral, j, w.accepted⟩ ∈ links)
    (call : net.connect s i w ip port fd = some net') : Traced s announced links net' := by
  obtain ⟨valid, accepted⟩ := connect_fds call
  have flight := Net.connect_flight call
  refine ⟨fun k x e known => ?_, fun k x e j known remote unused => ?_,
    fun pk mem => traced.frames pk (flight ▸ mem), fun pk mem =>
      traced.announced pk (flight ▸ mem)⟩
  · rcases Net.connect_new_ends call known with old | ⟨_, rfl, _⟩ | ⟨listens, rfl, _⟩
    · exact traced.fds k x e old
    · exact valid
    · exact accepted k listens
  · rcases Net.connect_new_ends call known with old | ⟨rfl, _, rfl⟩ | ⟨_, _, _, rfl⟩
    · exact traced.ends k x e j old remote unused
    · exact logged j remote
    · -- the end that accepted has the port its instance listens on
      rw [s.at_eq_some_iff.mpr ⟨rfl, rfl⟩] at unused
      cases unused

theorem Traced.multicast (traced : Traced s announced links net) {msgtag : Int} {msg : CString}
    (said : toShort msgtag = sbusManameis → (i, msg) ∈ announced) :
    Traced s announced links (net.multicast s i contested msgtag msg) := by
  refine ⟨traced.fds, traced.ends, fun pk mem own => ?_, fun pk mem announces => ?_⟩
  · rcases List.mem_append.mp mem with old | new
    · exact traced.frames pk old own
    · obtain ⟨j, _, rfl⟩ := List.mem_map.mp new
      exact absurd rfl own
  · rcases List.mem_append.mp mem with old | new
    · exact traced.announced pk old announces
    · obtain ⟨j, _, rfl⟩ := List.mem_map.mp new
      exact said announces

theorem Traced.unicast (traced : Traced s announced links net) {msgtag : Int} {msg : CString}
    (said : toShort msgtag = sbusManameis → (i, msg) ∈ announced) :
    Traced s announced links (net.unicast s i msgtag socket msg) := by
  rcases Net.unicast_cases s net i msgtag socket msg with ⟨j, e, known, remote, same⟩ | ⟨_, same⟩
  · rw [same]
    refine ⟨traced.fds, traced.ends, fun pk mem own unused => ?_, fun pk mem announces => ?_⟩
    · rcases List.mem_append.mp mem with old | new
      · exact traced.frames pk old own unused
      · obtain rfl := List.mem_singleton.mp new
        exact traced.ends i socket e j known remote unused
    · rcases List.mem_append.mp mem with old | new
      · exact traced.announced pk old announces
      · obtain rfl := List.mem_singleton.mp new
        exact said announces
  · rwa [same]

/-- What is asked for is accounted for once it is logged. -/
theorem Traced.perform (traced : Traced s announced links net)
    (said : ∀ a ∈ announcement i action, a ∈ announced)
    (logged : ∀ l ∈ link s i w action, l ∈ links)
    (call : net.perform s i contested w action = some net') :
    Traced s announced links net' ∧ ∀ l ∈ link s i w action, 0 ≤ l.fd := by
  cases action with
  | connect ip port fd =>
      refine ⟨traced.connect (fun j listens => logged _ (by simp [link, listens])) call, ?_⟩
      intro l made
      obtain ⟨j, listens, rfl⟩ := Option.map_eq_some_iff.mp made
      exact (connect_fds call).2 j listens
  | multicast msgtag msg =>
      obtain rfl := Option.some.inj call
      refine ⟨traced.multicast fun announces => said _ ?_, by simp [link]⟩
      simp [announcement, announces]
  | unicast msgtag socket msg =>
      obtain rfl := Option.some.inj call
      refine ⟨traced.unicast fun announces => said _ ?_, by simp [link]⟩
      simp [announcement, announces]

theorem Traced.performs (traced : Traced s announced links net)
    (said : ∀ action ∈ actions, ∀ a ∈ announcement i action, a ∈ announced)
    (logged : ∀ action ∈ actions, ∀ l ∈ link s i w action, l ∈ links)
    (call : actions.foldlM (Net.perform s i contested w) net = some net') :
    Traced s announced links net' ∧ ∀ action ∈ actions, ∀ l ∈ link s i w action, 0 ≤ l.fd := by
  induction actions generalizing net with
  | nil =>
      obtain rfl := Option.some.inj call
      exact ⟨traced, by simp⟩
  | cons action actions ih =>
      rw [List.foldlM_cons] at call
      obtain ⟨net₁, first, rest⟩ := Option.bind_eq_some_iff.mp call
      obtain ⟨said_first, said_rest⟩ := List.forall_mem_cons.mp said
      obtain ⟨logged_first, logged_rest⟩ := List.forall_mem_cons.mp logged
      obtain ⟨traced₁, valid⟩ := traced.perform said_first logged_first first
      obtain ⟨traced', later⟩ := ih traced₁ said_rest logged_rest rest
      exact ⟨traced', List.forall_mem_cons.mpr ⟨valid, later⟩⟩

/-- What a record of instance `i` shows is right, and if nobody listens at its
address, it shows the descriptor of the connection that came from there. -/
def Tied (s : Site n) (links : List (Link n)) (net : Net n) (i : Fin n) (ip : IP) (port : Port)
    (socket : SocketType) : Prop :=
  Net.Leads s net i ip port socket ∧ (s.at ip port = none → ⟨ip, port, i, socket⟩ ∈ links)

theorem Tied.mono (tied : Tied s links net i ip port socket) (keeps : Net.Keeps net net')
    (further : links ⊆ links') : Tied s links' net' i ip port socket :=
  ⟨tied.1.mono keeps, fun unused => further (tied.2 unused)⟩

/-- There is one connection between the same ends. -/
def Single (links : List (Link n)) : Prop :=
  ∀ l ∈ links, ∀ l' ∈ links, l.SameEnds l' → l.fd = l'.fd

/-- Records with one address lead to the same instance. -/
theorem Tied.route_eq {r r' : SPeerInfo} {j : Fin n} (single : Single links)
    (tied : Tied s links net i r.ip r.port r.socket)
    (tied' : Tied s links net i r'.ip r'.port r'.socket) (ip_eq : r.ip = r'.ip)
    (port_eq : r.port = r'.port) (leads : Net.route s net i r = some j) :
    Net.route s net i r' = some j := by
  cases listens : s.at r.ip r.port with
  | some k =>
      rw [tied.1.route_eq listens] at leads
      rw [ip_eq, port_eq] at listens
      rw [tied'.1.route_eq listens, leads]
  | none =>
      have link := tied.2 listens
      rw [ip_eq, port_eq] at link listens
      have same : r.socket = r'.socket :=
        single _ link _ (tied'.2 listens) ⟨rfl, rfl, rfl⟩
      rw [Net.route, ip_eq, port_eq, same] at leads
      exact leads

/-- The invariant: the network is in order, the log accounts for it, and what the
contacts show is tied to connections that are in it, one for each pair of ends. -/
structure Accounted (s : Site n) (t : Talk n) : Prop where
  genuine : Net.Genuine s t.net
  traced : Traced s t.announced t.links t.net
  assigned : ∀ i, ∃ A, Assigned A (t.net.inst i).scontacts
  tied : ∀ i, Listed (Tied s t.links t.net i) (t.net.inst i).scontacts
  single : Single t.links
  valid : ∀ l ∈ t.links, 0 ≤ l.fd

theorem accounted_start : Accounted s (start s) where
  genuine := Net.genuine_start
  traced := traced_start
  assigned i := ⟨_, assigned_empty⟩
  tied i := listed_empty
  single l mem := by cases mem
  valid l mem := by cases mem

variable {t u : Talk n} {pk : Packet n} {event : Event n}

/-- What is performed keeps the log in order. -/
theorem Accounted.performs {base : Net n} (accounted : Accounted s t)
    (traced : Traced s t.announced t.links base)
    (fresh : ∀ l ∈ actions.filterMap (link s i w), ∀ l' ∈ t.links, ¬ l.SameEnds l')
    (call : actions.foldlM (Net.perform s i contested w) base = some net') :
    Traced s (t.announced ++ actions.filterMap (announcement i))
      (t.links ++ actions.filterMap (link s i w)) net' ∧
    Single (t.links ++ actions.filterMap (link s i w)) ∧
    ∀ l ∈ t.links ++ actions.filterMap (link s i w), 0 ≤ l.fd := by
  obtain ⟨traced', valid⟩ := (traced.mono
    (List.subset_append_left _ (actions.filterMap (announcement i)))
    (List.subset_append_left _ (actions.filterMap (link s i w)))).performs
    (fun action mem a said =>
      List.mem_append_right _ (List.mem_filterMap.mpr ⟨action, mem, said⟩))
    (fun action mem l made =>
      List.mem_append_right _ (List.mem_filterMap.mpr ⟨action, mem, made⟩)) call
  have accepted : ∀ l ∈ actions.filterMap (link s i w), l.fd = w.accepted := by
    intro l mem
    obtain ⟨action, _, made⟩ := List.mem_filterMap.mp mem
    cases action with
    | connect ip port fd =>
        obtain ⟨j, _, rfl⟩ := Option.map_eq_some_iff.mp made
        rfl
    | multicast msgtag msg => cases made
    | unicast msgtag socket msg => cases made
  refine ⟨traced', fun l mem l' mem' same => ?_, fun l mem => ?_⟩
  · rcases List.mem_append.mp mem with old | new <;>
      rcases List.mem_append.mp mem' with old' | new'
    · exact accounted.single l old l' old' same
    · exact absurd ⟨same.1.symm, same.2.1.symm, same.2.2.symm⟩ (fresh l' new' l old)
    · exact absurd same (fresh l new l' old')
    · rw [accepted l new, accepted l' new']
  · rcases List.mem_append.mp mem with old | new
    · exact accounted.valid l old
    · obtain ⟨action, mem, made⟩ := List.mem_filterMap.mp new
      exact valid action mem l made

/-- A frame on a connection comes from the other end, which is where its descriptor
leads. -/
theorem Accounted.frame (accounted : Accounted s t) (mem : pk ∈ t.net.flight)
    (own : pk.smsg.socket ≠ s.mcsock pk.dst) :
    0 ≤ pk.smsg.socket ∧ reach t.net pk.dst pk.smsg.socket = some pk.src ∧
      Tied s t.links t.net pk.dst pk.smsg.ip pk.smsg.port pk.smsg.socket := by
  rcases (accounted.genuine.wired.flight pk mem).origin with ⟨shared, _⟩ |
    ⟨_, _, ⟨e, known, remote⟩, from_⟩
  · exact absurd shared own
  · refine ⟨accounted.traced.fds _ _ _ known, by rw [reach, known, ← remote]; rfl,
      ⟨own, fun _ j listens => ⟨e, known, ?_⟩⟩, accounted.traced.frames pk mem own⟩
    rw [remote, from_ j listens]

/-- A multicast frame shows the address of an instance. -/
theorem Accounted.shared (accounted : Accounted s t) (mem : pk ∈ t.net.flight)
    (shared : pk.smsg.socket = s.mcsock pk.dst) :
    s.at pk.smsg.ip pk.smsg.port = some pk.src ∧
      Tied s t.links t.net pk.dst pk.smsg.ip pk.smsg.port invalidSocket := by
  rcases (accounted.genuine.wired.flight pk mem).origin with ⟨_, from_, _⟩ | ⟨_, own, _⟩
  · refine ⟨from_, ⟨(s.valid pk.dst).symm, fun valid => absurd valid (by decide)⟩, ?_⟩
    intro unused
    rw [from_] at unused
    cases unused
  · exact absurd shared own

theorem genuine_send {env : SendEnv} {msgtag res : Int} {peer : SBusPeer} {msg : CString}
    {b : SBus} (genuine : Net.Genuine s net)
    (sent : (net.inst i).send env msgtag peer msg = (res, b, actions))
    (call : actions.foldlM (Net.perform s i (fun _ => false) w) (net.setInst i b) = some net') :
    Net.Genuine s net' := by
  have before : Net.Wired s (net.setInst i b) :=
    ⟨genuine.wired.fds, genuine.wired.ports, genuine.wired.back, fun other mem =>
      (genuine.wired.flight other mem).mono fun _ _ _ => id⟩
  have grows := Net.grows_performs call
  have wired := before.performs (fun j flagged => by cases flagged) call
  obtain ⟨changes, same⟩ := SBus.send_changes (Net.Leads s net' i)
    (fun ip port made _ => Net.leads_performs call made) sent
  exact genuine.changed grows rfl rfl rfl wired changes same

/-- What one instance has done to its contacts is in order when it made them from
ones that were, and what is performed is logged. -/
theorem Accounted.settle {base : Net n} {b : SBus} (accounted : Accounted s t)
    (call : actions.foldlM (Net.perform s i contested w) base = some net')
    (genuine : Net.Genuine s net') (inst : base.inst = Function.update t.net.inst i b)
    (ends : base.ends = t.net.ends) (flight : base.flight ⊆ t.net.flight)
    (fresh : ∀ l ∈ actions.filterMap (link s i w), ∀ l' ∈ t.links, ¬ l.SameEnds l')
    (assigned : ∃ A, Assigned A b.scontacts)
    (tied : ∀ links, t.links ⊆ links → (∀ l ∈ links, 0 ≤ l.fd) → Net.Keeps t.net net' →
      Listed (Tied s links net' i) b.scontacts) :
    Accounted s { net := net', announced := t.announced ++ actions.filterMap (announcement i),
                  links := t.links ++ actions.filterMap (link s i w) } := by
  obtain ⟨traced', single, valid⟩ :=
    accounted.performs (accounted.traced.fewer ends flight) fresh call
  have grows := Net.grows_performs call
  have keeps : Net.Keeps t.net net' := fun j fd e known => grows.ends j fd e (ends ▸ known)
  have further : t.links ⊆ t.links ++ actions.filterMap (link s i w) :=
    List.subset_append_left _ _
  refine ⟨genuine, traced', fun j => ?_, fun j => ?_, single, valid⟩
  · rw [grows.inst, inst, Function.update_apply]
    split
    case isTrue here => exact assigned
    case isFalse there => exact accounted.assigned j
  · rw [grows.inst, inst, Function.update_apply]
    split
    case isTrue here => exact here ▸ tied _ further valid keeps
    case isFalse there =>
      exact (accounted.tied j).mono fun _ _ _ tied => tied.mono keeps further

/-- A new connection is to where an instance listens, since the records of all other
addresses show a descriptor. -/
theorem Tied.reconnect (valid : ∀ l ∈ links, 0 ≤ l.fd) (tied : Tied s links net i ip port socket)
    (shut : socket < 0) (leads : Net.Leads s net i ip port fd) :
    Tied s links net i ip port fd := by
  refine ⟨leads, fun unused => ?_⟩
  exact absurd (valid _ (tied.2 unused)) (Int.not_le.mpr shut)

theorem step_eq_some (taken : step s t event = some u)
    (asks : asked t.net event = (i, w, actions)) :
    (∀ l ∈ actions.filterMap (link s i w), ∀ l' ∈ t.links, ¬ l.SameEnds l') ∧
      ∃ net', move s t.net event = some net' ∧
        u = { net := net', announced := t.announced ++ actions.filterMap (announcement i),
              links := t.links ++ actions.filterMap (link s i w) } := by
  unfold step at taken
  rw [asks] at taken
  obtain ⟨fresh, taken⟩ := Option.ite_none_right_eq_some.mp taken
  obtain ⟨net', moved, rfl⟩ := Option.map_eq_some_iff.mp taken
  exact ⟨fresh, net', moved, rfl⟩

theorem Accounted.setName {name : CString} (accounted : Accounted s t)
    (taken : step s t (.net (.setName i name)) = some u) : Accounted s u := by
  obtain ⟨fresh, net', moved, rfl⟩ := step_eq_some taken rfl
  have whole : t.net.step s (.setName i name) = some net' := moved
  have genuine := accounted.genuine.step whole
  have call : ((t.net.inst i).setName name).2.foldlM
      (Net.perform s i (fun j => t.net.named j = some name) ⟨0, 0⟩)
      { t.net.setInst i ((t.net.inst i).setName name).1 with
        named := Function.update t.net.named i (some name) } = some net' := moved
  exact accounted.settle call genuine rfl rfl (List.Subset.refl _) fresh (accounted.assigned i)
    fun _ further _ keeps => (accounted.tied i).mono fun _ _ _ tied => tied.mono keeps further

theorem Accounted.multicast {msgtag : Int} {msg : CString} (accounted : Accounted s t)
    (taken : step s t (.net (.multicast i msgtag msg)) = some u) : Accounted s u := by
  obtain ⟨fresh, net', moved, rfl⟩ := step_eq_some taken rfl
  have whole : t.net.step s (.multicast i msgtag msg) = some net' := moved
  have genuine := accounted.genuine.step whole
  have call : [Action.multicast msgtag msg].foldlM
      (Net.perform s i (fun _ => false) ⟨0, 0⟩) t.net = some net' := moved
  exact accounted.settle call genuine (Function.update_eq_self _ _).symm rfl
    (List.Subset.refl _) fresh (accounted.assigned i)
    fun _ further _ keeps => (accounted.tied i).mono fun _ _ _ tied => tied.mono keeps further

theorem Accounted.send {env : SendEnv} {msgtag : Int} {peer : SBusPeer} {msg : CString}
    (accounted : Accounted s t)
    (taken : step s t (.send i env w msgtag peer msg) = some u) : Accounted s u := by
  rcases sent : (t.net.inst i).send env msgtag peer msg with ⟨res, b, actions⟩
  obtain ⟨fresh, net', moved, rfl⟩ := step_eq_some (i := i) (w := w) taken (by rw [asked, sent])
  have call : actions.foldlM (Net.perform s i (fun _ => false) w) (t.net.setInst i b) =
      some net' := by
    rw [move, sent] at moved
    exact moved
  have genuine := genuine_send accounted.genuine sent call
  obtain ⟨changes, _⟩ := SBus.send_changes (fun _ _ _ => True) (fun _ _ _ _ => trivial) sent
  obtain ⟨A, assigned⟩ := accounted.assigned i
  obtain ⟨_, A', assigned', _⟩ := assigned.changes changes
  refine accounted.settle call genuine rfl rfl (List.Subset.refl _) fresh ⟨A', assigned'⟩
    fun links further valid keeps => ?_
  exact SBus.listed_send ((accounted.tied i).mono fun _ _ _ tied => tied.mono keeps further)
    (fun ip port socket tied shut made =>
      tied.reconnect valid shut (Net.leads_performs call made)) sent

/-- A delivery in its parts. -/
theorem deliver_eq_some {env : StepEnv} (taken : step s t (.net (.deliver pk env w)) = some u) :
    pk ∈ t.net.flight ∧ ∃ id b actions net',
      (t.net.inst pk.dst).processSMsg env pk.smsg = some (id, b, actions) ∧
      actions.foldlM (Net.perform s pk.dst (fun _ => false) w)
        { t.net.setInst pk.dst b with flight := t.net.flight.erase pk } = some net' ∧
      t.net.step s (.deliver pk env w) = some net' ∧
      (∀ l ∈ actions.filterMap (link s pk.dst w), ∀ l' ∈ t.links, ¬ l.SameEnds l') ∧
      u = { net := net', announced := t.announced ++ actions.filterMap (announcement pk.dst),
            links := t.links ++ actions.filterMap (link s pk.dst w) } := by
  obtain ⟨fresh, net', moved, rfl⟩ := step_eq_some taken rfl
  have whole : t.net.step s (.deliver pk env w) = some net' := moved
  obtain ⟨mem, call⟩ := Option.ite_none_right_eq_some.mp whole
  obtain ⟨⟨id, b, actions⟩, processed, call⟩ := Option.bind_eq_some_iff.mp call
  rw [processed] at fresh ⊢
  exact ⟨mem, id, b, actions, net', rfl, call, whole, fresh, rfl⟩

theorem Accounted.deliver {env : StepEnv} (accounted : Accounted s t)
    (taken : step s t (.net (.deliver pk env w)) = some u) : Accounted s u := by
  obtain ⟨mem, id, b, actions, net', processed, call, whole, fresh, rfl⟩ := deliver_eq_some taken
  have genuine := accounted.genuine.step whole
  have data := (accounted.genuine.wired.flight pk mem).data
  have mcsock_eq := (accounted.genuine.placed pk.dst).2.2
  obtain ⟨changes, _⟩ := SBus.processSMsg_any_changes (accounted.genuine.sound pk.dst) processed
  obtain ⟨A, assigned⟩ := accounted.assigned pk.dst
  obtain ⟨_, A', assigned', _⟩ := assigned.changes changes
  refine accounted.settle call genuine rfl rfl (List.erase_subset) fresh ⟨A', assigned'⟩
    fun links further valid keeps => ?_
  have frame := fun own => (accounted.frame mem (mcsock_eq ▸ own)).2.2.mono keeps further
  refine SBus.listed_processSMsg
    ((accounted.tied pk.dst).mono fun _ _ _ tied => tied.mono keeps further) data
    (fun shared => (accounted.shared mem (mcsock_eq ▸ shared)).2.mono keeps further) frame
    (fun own q found => ?_)
    (fun ip port socket tied shut made =>
      tied.reconnect valid shut (Net.leads_performs call made)) processed
  obtain ⟨ip_eq, port_eq⟩ := findIpPort_address (accounted.genuine.sound pk.dst) found
  rw [ip_eq, port_eq]
  exact frame own

theorem Accounted.step (accounted : Accounted s t) (taken : step s t event = some u) :
    Accounted s u := by
  cases event with
  | send i env w msgtag peer msg => exact accounted.send taken
  | net event =>
      cases event with
      | setName i name => exact accounted.setName taken
      | multicast i msgtag msg => exact accounted.multicast taken
      | deliver pk env w => exact accounted.deliver taken

end Talk

end LibSBus
