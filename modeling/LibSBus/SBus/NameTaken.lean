import LibSBus.SBus.Network

/-!
The NAMETAKEN notice. It goes to whoever the contact that the announcement was
attributed to leads to. In every run the contact of an address leads to the
instance at that address, so the notice goes astray only when the announcement
comes from an address without a contact and is attributed to the contact that
carries the contested name.
-/

namespace LibSBus

open Lib SContacts

namespace Net

variable {n : Nat} {s : Site n} {net t u : Net n} {i : Fin n} {w : Wire} {contested : Fin n → Bool}
  {action : Action} {actions : List Action} {pk : Packet n} {ip : IP} {port : Port}
  {socket : SocketType}

/-- What a record of instance `i` shows is right: a socket recorded for the
address of an instance is connected to that instance. -/
def Leads (s : Site n) (net : Net n) (i : Fin n) (ip : IP) (port : Port)
    (socket : SocketType) : Prop :=
  socket ≠ s.mcsock i ∧
    (0 ≤ socket → ∀ j, s.at ip port = some j →
      ∃ e, net.ends i socket = some e ∧ e.remote = some j)

/-- A message is what its sender wrote, over multicast or on a connection. -/
structure Authentic (s : Site n) (net : Net n) (pk : Packet n) : Prop where
  data : pk.smsg.error = false
  origin :
    (pk.smsg.socket = s.mcsock pk.dst ∧ s.at pk.smsg.ip pk.smsg.port = some pk.src ∧
      pk.src ≠ pk.dst) ∨
    (pk.contested = false ∧ pk.smsg.socket ≠ s.mcsock pk.dst ∧
      (∃ e, net.ends pk.dst pk.smsg.socket = some e ∧ e.remote = some pk.src) ∧
      ∀ k, s.at pk.smsg.ip pk.smsg.port = some k → k = pk.src)
  announced : pk.contested = true → pk.smsg.msgtag = sbusManameis

/-- Connections have two ends that lead to each other, and a local port is the
one the instance listens on or nobody's. -/
structure Wired (s : Site n) (net : Net n) : Prop where
  fds : ∀ i fd e, net.ends i fd = some e → fd ≠ s.mcsock i
  ports : ∀ i fd e, net.ends i fd = some e → ∀ k, s.at (s.ip i) e.localPort = some k → k = i
  back : ∀ i fd e j, net.ends i fd = some e → e.remote = some j →
    ∃ e', net.ends j e.remoteFd = some e' ∧ e'.remote = some i
  flight : ∀ pk ∈ net.flight, Authentic s net pk

theorem wired_start : Wired s (start s) where
  fds i fd e known := by cases known
  ports i fd e known := by cases known
  back i fd e j known := by cases known
  flight pk mem := by cases mem

/-- No end is lost. -/
def Keeps (net t : Net n) : Prop := ∀ i fd e, net.ends i fd = some e → t.ends i fd = some e

theorem Leads.mono (leads : Leads s net i ip port socket) (keeps : Keeps net t) :
    Leads s t i ip port socket := by
  refine ⟨leads.1, fun valid j listens => ?_⟩
  obtain ⟨e, known, remote⟩ := leads.2 valid j listens
  exact ⟨e, keeps _ _ _ known, remote⟩

theorem Authentic.mono (authentic : Authentic s net pk) (keeps : Keeps net t) :
    Authentic s t pk := by
  refine ⟨authentic.data, ?_, authentic.announced⟩
  rcases authentic.origin with mcast | ⟨plain, own, ⟨e, known, remote⟩, from_⟩
  · exact .inl mcast
  · exact .inr ⟨plain, own, ⟨e, keeps _ _ _ known, remote⟩, from_⟩

/-- A descriptor recorded with a new connection leads where it was connected. -/
theorem leads_connect {fd : SocketType} (call : net.connect s i w ip port fd = some t) :
    Leads s t i ip port fd := by
  obtain ⟨_, _, own, _⟩ := connect_eq_some call
  exact ⟨own, fun _ j listens => ⟨_, (connect_ends call).1, listens⟩⟩

theorem Wired.connect {fd : SocketType} (wired : Wired s net)
    (call : net.connect s i w ip port fd = some t) : Wired s t := by
  have grows := grows_connect call
  obtain ⟨_, _, own, unused, _⟩ := connect_eq_some call
  obtain ⟨near, far⟩ := connect_ends call
  refine ⟨fun k x e known => ?_, fun k x e known => ?_, fun k x e l known remote => ?_,
    fun pk mem => (wired.flight pk (connect_flight call ▸ mem)).mono grows.ends⟩
  · rcases connect_new_ends call known with old | ⟨rfl, rfl, _⟩ | ⟨_, _, other, _⟩
    · exact wired.fds k x e old
    · exact own
    · exact other
  · rcases connect_new_ends call known with old | ⟨rfl, _, rfl⟩ | ⟨_, _, _, rfl⟩
    · exact wired.ports k x e old
    · intro l listens
      rw [unused] at listens
      cases listens
    · intro l listens
      obtain ⟨ip_eq, port_eq⟩ := s.at_eq_some_iff.mp listens
      exact s.distinct l k ip_eq port_eq
  · rcases connect_new_ends call known with old | ⟨rfl, rfl, rfl⟩ | ⟨_, _, _, rfl⟩
    · obtain ⟨e', known', remote'⟩ := wired.back k x e l old remote
      exact ⟨e', grows.ends _ _ _ known', remote'⟩
    · exact ⟨_, far l remote, rfl⟩
    · obtain rfl := Option.some.inj remote
      exact ⟨_, near, ‹_›⟩

theorem Wired.multicast (wired : Wired s net) {msgtag : Int} {msg : CString}
    (announced : ∀ j, contested j = true → toShort msgtag = sbusManameis) :
    Wired s (net.multicast s i contested msgtag msg) := by
  refine ⟨wired.fds, wired.ports, wired.back, fun pk mem => ?_⟩
  rcases List.mem_append.mp mem with old | new
  · exact (wired.flight pk old).mono fun _ _ _ => id
  · obtain ⟨j, other, rfl⟩ := List.mem_map.mp new
    have apart : i ≠ j := by
      rintro rfl
      simp at other
    exact ⟨rfl, .inl ⟨rfl, s.at_eq_some_iff.mpr ⟨(s.oneInterface i).symm, rfl⟩, apart⟩,
      announced j⟩

theorem Wired.unicast (wired : Wired s net) (msgtag : Int) (msg : CString) :
    Wired s (net.unicast s i msgtag socket msg) := by
  rcases unicast_cases s net i msgtag socket msg with ⟨j, e, known, remote, same⟩ | ⟨_, same⟩
  · rw [same]
    refine ⟨wired.fds, wired.ports, wired.back, fun pk mem => ?_⟩
    rcases List.mem_append.mp mem with old | new
    · exact (wired.flight pk old).mono fun _ _ _ => id
    · obtain rfl := List.mem_singleton.mp new
      obtain ⟨e', known', remote'⟩ := wired.back i socket e j known remote
      exact ⟨rfl, .inr ⟨rfl, wired.fds _ _ _ known', ⟨e', known', remote'⟩,
        wired.ports i socket e known⟩, fun flagged => by cases flagged⟩
  · rwa [same]

/-- What an action asks for leaves the network in order, provided that only
announcements are marked as contested. -/
theorem Wired.performs (wired : Wired s net)
    (announced : ∀ j, contested j = true → ∀ msgtag msg, .multicast msgtag msg ∈ actions →
      toShort msgtag = sbusManameis)
    (call : actions.foldlM (perform s i contested w) net = some t) : Wired s t := by
  induction actions generalizing net with
  | nil =>
      obtain rfl := Option.some.inj call
      exact wired
  | cons action actions ih =>
      rw [List.foldlM_cons] at call
      obtain ⟨net', first, rest⟩ := Option.bind_eq_some_iff.mp call
      have wired' : Wired s net' := by
        cases action with
        | connect ip port fd => exact wired.connect first
        | multicast msgtag msg =>
            obtain rfl := Option.some.inj first
            exact wired.multicast fun j flagged =>
              announced j flagged msgtag msg List.mem_cons_self
        | unicast msgtag socket msg =>
            obtain rfl := Option.some.inj first
            exact wired.unicast msgtag msg
      exact ih wired' (fun j flagged msgtag msg mem =>
        announced j flagged msgtag msg (List.mem_cons_of_mem _ mem)) rest

theorem leads_performs {fd : SocketType}
    (call : actions.foldlM (perform s i contested w) net = some t)
    (made : .connect ip port fd ∈ actions) : Leads s t i ip port fd := by
  induction actions generalizing net with
  | nil => cases made
  | cons action actions ih =>
      rw [List.foldlM_cons] at call
      obtain ⟨net', first, rest⟩ := Option.bind_eq_some_iff.mp call
      rcases List.mem_cons.mp made with rfl | later
      · exact (leads_connect first).mono (grows_performs rest).ends
      · exact ih rest later

/-- Every instance is where the site says and has the name it set last, its maps
lead to records, and its records lead to the right instances. -/
structure Genuine (s : Site n) (net : Net n) : Prop where
  wired : Wired s net
  placed : ∀ i, (net.inst i).serverIP = s.ip i ∧ (net.inst i).serverPort = s.port i ∧
    (net.inst i).mcsock = s.mcsock i
  holds : ∀ i name, net.named i = some name → (net.inst i).name = name
  sound : ∀ i, IndexesSound (net.inst i).scontacts (net.inst i).scontacts.heap.live
  records : ∀ i, Shows (Leads s net i) (net.inst i).scontacts

theorem genuine_start : Genuine s (start s) where
  wired := wired_start
  placed i := ⟨rfl, rfl, rfl⟩
  holds i name held := by cases held
  sound i := indexesSound_empty
  records i p := ⟨(s.valid i).symm, fun valid => absurd valid (by decide : ¬ (0 : Int) ≤ -1)⟩

/-- A step changes one instance and then performs its actions. -/
theorem Genuine.settle {b : SBus} (genuine : Genuine s net) (grows : Grows u t)
    (inst : u.inst = Function.update net.inst i b) (ends : u.ends = net.ends)
    (wired : Wired s t) (holds : ∀ j name, u.named j = some name → (u.inst j).name = name)
    (placed : b.serverIP = s.ip i ∧ b.serverPort = s.port i ∧ b.mcsock = s.mcsock i)
    (sound : IndexesSound b.scontacts b.scontacts.heap.live)
    (records : Shows (Leads s t i) b.scontacts) : Genuine s t := by
  have keeps : Keeps net t := fun j fd e known => grows.ends j fd e (ends ▸ known)
  refine ⟨wired, fun j => ?_, fun j name => ?_, fun j => ?_, fun j => ?_⟩
  · rw [grows.inst, inst, Function.update_apply]
    split
    case isTrue same => exact same ▸ placed
    case isFalse other => exact genuine.placed j
  · rw [grows.named, grows.inst]
    exact holds j name
  · rw [grows.inst, inst, Function.update_apply]
    split
    case isTrue same => exact sound
    case isFalse other => exact genuine.sound j
  · rw [grows.inst, inst, Function.update_apply]
    split
    case isTrue same => exact same ▸ records
    case isFalse other => exact fun p => (genuine.records j p).mono keeps

/-- What an instance records is right as far as the network its actions leave allows
it. -/
theorem Genuine.changed {b : SBus} (genuine : Genuine s net) (grows : Grows u t)
    (inst : u.inst = Function.update net.inst i b) (named : u.named = net.named)
    (ends : u.ends = net.ends) (wired : Wired s t)
    (changes : Changes (Leads s t i) (net.inst i).scontacts b.scontacts)
    (same : b = { net.inst i with scontacts := b.scontacts }) : Genuine s t := by
  have keeps : Keeps net t := fun j fd e known => grows.ends j fd e (ends ▸ known)
  refine genuine.settle grows inst ends wired (fun j name held => ?_) ?_
    ((genuine.sound i).changes changes) ?_
  · rw [inst, Function.update_apply]
    rw [named] at held
    split
    case isTrue here =>
      rw [same]
      exact here ▸ genuine.holds j name held
    case isFalse elsewhere => exact genuine.holds j name held
  · rw [same]
    exact genuine.placed i
  · exact Shows.changes (fun p => (genuine.records i p).mono keeps) (genuine.sound i) changes

theorem Genuine.setName {name : CString} (genuine : Genuine s net)
    (call : step s net (.setName i name) = some t) : Genuine s t := by
  have before : Wired s { net.setInst i ((net.inst i).setName name).1 with
      named := Function.update net.named i (some name) } :=
    ⟨genuine.wired.fds, genuine.wired.ports, genuine.wired.back,
      fun pk mem => (genuine.wired.flight pk mem).mono fun _ _ _ => id⟩
  have grows := grows_performs call
  have wired := before.performs (fun j flagged msgtag msg mem => by
    obtain ⟨rfl, rfl⟩ := Action.multicast.inj (List.mem_singleton.mp mem)
    rfl) call
  refine genuine.settle grows rfl rfl wired (fun j m held => ?_) (genuine.placed i)
    (genuine.sound i) fun p => (genuine.records i p).mono grows.ends
  unfold setInst at held ⊢
  dsimp only at held ⊢
  by_cases same : j = i
  · subst same
    rw [Function.update_self] at held ⊢
    exact Option.some.inj held
  · rw [Function.update_of_ne same] at held ⊢
    exact genuine.holds j m held

/-- What processing a message makes an instance record leads to the right
instances in the network its actions leave. -/
theorem Genuine.deliver {env : StepEnv} (genuine : Genuine s net)
    (call : step s net (.deliver pk env w) = some t) : Genuine s t := by
  obtain ⟨mem, call⟩ := Option.ite_none_right_eq_some.mp call
  obtain ⟨⟨peer, b, actions⟩, processed, call⟩ := Option.bind_eq_some_iff.mp call
  have before : Wired s { net.setInst pk.dst b with flight := net.flight.erase pk } :=
    ⟨genuine.wired.fds, genuine.wired.ports, genuine.wired.back, fun other mem =>
      (genuine.wired.flight other (List.mem_of_mem_erase mem)).mono fun _ _ _ => id⟩
  have grows := grows_performs call
  have wired := before.performs (fun j flagged => by cases flagged) call
  have authentic := genuine.wired.flight pk mem
  obtain ⟨ip_eq, port_eq, mcsock_eq⟩ := genuine.placed pk.dst
  obtain ⟨changes, same⟩ := SBus.processSMsg_changes (Leads s t pk.dst) (genuine.sound pk.dst)
    authentic.data ⟨(s.valid pk.dst).symm, fun valid => absurd valid (by decide)⟩
    (fun own => by
      rw [mcsock_eq] at own
      rcases authentic.origin with ⟨shared, _⟩ | ⟨_, _, ⟨e, known, remote⟩, from_⟩
      · exact absurd shared own
      · refine ⟨own, fun _ j listens => ⟨e, grows.ends _ _ _ known, ?_⟩⟩
        rw [remote, from_ j listens])
    (fun ip port made _ => leads_performs call made) processed
  exact genuine.changed grows rfl rfl rfl wired changes same

theorem Genuine.step {event : Event n} (genuine : Genuine s net)
    (call : net.step s event = some t) : Genuine s t := by
  cases event with
  | setName i name => exact genuine.setName call
  | multicast i msgtag msg =>
      obtain rfl := Option.some.inj call
      have wired : Wired s (net.multicast s i (fun _ => false) msgtag msg) :=
        genuine.wired.multicast fun j flagged => by cases flagged
      exact ⟨wired, genuine.placed, genuine.holds, genuine.sound, fun j p =>
        (genuine.records j p).mono fun _ _ _ => id⟩
  | deliver pk env w => exact genuine.deliver call

/-- Where a message to a contact goes: along its socket, or to whoever listens at
its address. -/
def route (s : Site n) (net : Net n) (i : Fin n) (r : SPeerInfo) : Option (Fin n) :=
  if 0 ≤ r.socket then (net.ends i r.socket).bind End.remote else s.at r.ip r.port

/-- A contact with the address of an instance leads to that instance. -/
theorem Leads.route_eq {r : SPeerInfo} {j : Fin n} (leads : Leads s net i r.ip r.port r.socket)
    (listens : s.at r.ip r.port = some j) : route s net i r = some j := by
  unfold route
  split
  case isTrue open_ =>
    obtain ⟨e, known, remote⟩ := leads.2 open_ j listens
    rw [known, ← remote]
    rfl
  case isFalse shut => exact listens

/-- A rename does not change where a contact leads. -/
theorem route_updateName {c : SContacts} (e : CallEnv) (p : Ptr) (name : CString) :
    route s net i ((c.updateName e p name).2.info (c.updateName e p name).1) =
      route s net i (c.info p) := by
  rw [updateName, info_file_self, route, route]

/-- The messages a step adds have one like this among them. -/
def Sends (net t : Net n) (src dst : Fin n) (msgtag : Int) (msg : CString) : Prop :=
  ∃ sent, t.flight = net.flight ++ sent ∧
    ∃ r ∈ sent, r.src = src ∧ r.dst = dst ∧ r.smsg.msgtag = msgtag ∧ r.smsg.msg = msg

instance (net t : Net n) (src dst : Fin n) (msgtag : Int) (msg : CString) :
    Decidable (Sends net t src dst msgtag msg) :=
  decidable_of_iff (net.flight <+: t.flight ∧ ∃ r ∈ t.flight.drop net.flight.length,
      r.src = src ∧ r.dst = dst ∧ r.smsg.msgtag = msgtag ∧ r.smsg.msg = msg) <| by
    constructor
    · rintro ⟨⟨sent, flight⟩, found⟩
      rw [← flight, List.drop_left] at found
      exact ⟨sent, flight.symm, found⟩
    · rintro ⟨sent, flight, found⟩
      rw [flight, List.drop_left]
      exact ⟨List.prefix_append _ _, found⟩

theorem sends_unicast {e : End n} {j : Fin n} (known : net.ends i socket = some e)
    (remote : e.remote = some j) (msgtag : Int) (msg : CString) :
    Sends net (net.unicast s i msgtag socket msg) i j (toShort msgtag) msg := by
  rcases unicast_cases s net i msgtag socket msg with ⟨k, e', known', remote', same⟩ |
    ⟨unknown, _⟩
  · rw [known] at known'
    obtain rfl := Option.some.inj known'
    rw [remote] at remote'
    obtain rfl := Option.some.inj remote'
    rw [same]
    exact ⟨_, rfl, _, List.mem_singleton_self _, rfl, rfl, rfl, rfl⟩
  · exact absurd ⟨j, e, known, remote⟩ unknown

/-- A message to a known contact gets to where its record leads. -/
theorem sends_of_route {b b' : SBus} {env : SendEnv} {msgtag : Int} {msg : CString} {res : Int}
    {peer : SBusPeer} {p : Ptr} {j : Fin n} (known : b.scontacts.findPeer peer = some p)
    (leads : route s net i (b.scontacts.info p) = some j)
    (sent : b.send env msgtag peer msg = (res, b', actions))
    (call : actions.foldlM (perform s i contested w) net = some t) :
    Sends net t i j (toShort msgtag) msg := by
  unfold route at leads
  rcases SBus.send_cases _ _ _ sent with ⟨unknown, _⟩ | ⟨q, found, cases_⟩
  · rw [known] at unknown
    cases unknown
  rw [known] at found
  obtain rfl := Option.some.inj found
  rcases cases_ with ⟨open_, _, rfl⟩ | ⟨shut, _, _, _, rfl⟩ | ⟨_, _, failed, _, rfl⟩ |
    ⟨shut, unlocated, _⟩
  · rw [if_pos open_] at leads
    obtain ⟨e, known, remote⟩ := Option.bind_eq_some_iff.mp leads
    obtain rfl := Option.some.inj call
    exact sends_unicast known remote msgtag msg
  · rw [if_neg (Int.not_le.mpr shut)] at leads
    rw [List.foldlM_cons] at call
    obtain ⟨net', connected, rest⟩ := Option.bind_eq_some_iff.mp call
    obtain rfl := Option.some.inj rest
    obtain ⟨sent, flight, found⟩ := sends_unicast (s := s) (connect_ends connected).1 leads
      msgtag msg
    exact ⟨sent, connect_flight connected ▸ flight, found⟩
  · -- connecting is taken to succeed
    rw [List.foldlM_cons] at call
    obtain ⟨net', connected, _⟩ := Option.bind_eq_some_iff.mp call
    exact absurd (connect_eq_some connected).1 (Int.not_le.mpr failed)
  · rw [if_neg (Int.not_le.mpr shut)] at leads
    have listens := (s.at_eq_some_iff.mp leads).1
    rw [unlocated] at listens
    exact absurd listens (s.located j)

/-- An instance answers an announcement of its own name by NAMETAKEN, which gets
to where the contact it was attributed to leads. -/
theorem sends_nametaken {b b' : SBus} {env : StepEnv} {smsg : SMsg} {p : Ptr} {j : Fin n}
    {id : SBusPeer} (own : b.name = smsg.msg) (manameis : smsg.msgtag = sbusManameis)
    (leads : route s net i (b.scontacts.info p) = some j)
    (handled : b.handle env smsg p (b.scontacts.info p).peer = (id, b', actions))
    (call : actions.foldlM (perform s i contested w) net = some t) :
    Sends net t i j sbusNametaken smsg.msg := by
  have reply : b.replyTag smsg = some sbusNametaken := by
    rw [SBus.replyTag, if_pos own, manameis]
    rfl
  have renamed : b.renamed env.rename smsg p =
      { b with scontacts := (b.scontacts.updateName env.rename p smsg.msg).2 } := by
    rw [SBus.renamed, if_pos (.inl manameis)]
  rcases SBus.handle_cases handled with ⟨silent, _⟩ | ⟨tag, res, replied, sent⟩
  · rw [reply] at silent
    cases silent
  · obtain rfl := Option.some.inj (reply.symm.trans replied)
    rw [renamed, own] at sent
    -- the contact was filed again under its id, and its record leads where it did
    have filed : (b.scontacts.updateName env.rename p smsg.msg).2.findPeer
        (b.scontacts.info p).peer = some (b.scontacts.updateName env.rename p smsg.msg).1 :=
      findPeer_file
    have leads' := (route_updateName env.rename p smsg.msg).trans leads
    exact sends_of_route filed leads' sent call

/-- An instance that holds a name it set and processes an announcement of it
that was contested when it was made sends NAMETAKEN to the announcer. -/
def NotifiesAnnouncer (s : Site n) (net : Net n) : Event n → Prop
  | .deliver pk env w =>
      pk.contested = true → net.named pk.dst = some pk.smsg.msg →
        ∀ t ∈ net.step s (.deliver pk env w),
          Sends { net with flight := net.flight.erase pk } t pk.dst pk.src sbusNametaken
            pk.smsg.msg
  | _ => True

instance (s : Site n) (net : Net n) (event : Event n) :
    Decidable (NotifiesAnnouncer s net event) := by
  cases event <;> unfold NotifiesAnnouncer <;> infer_instance

/-- Unless some contact has the announcer's address, none is found by the
contested name that leads elsewhere. -/
def AttributesAnnouncement (s : Site n) (net : Net n) : Event n → Prop
  | .deliver pk _ _ =>
      pk.contested = true → net.named pk.dst = some pk.smsg.msg →
        (net.inst pk.dst).scontacts.findIpPort pk.smsg.ip pk.smsg.port = none →
          ∀ q ∈ (net.inst pk.dst).scontacts.findName pk.smsg.msg,
            route s net pk.dst ((net.inst pk.dst).scontacts.info q) = some pk.src
  | _ => True

instance (s : Site n) (net : Net n) (event : Event n) :
    Decidable (AttributesAnnouncement s net event) := by
  cases event <;> unfold AttributesAnnouncement <;> infer_instance

/-- An announcement is attributed to a contact that leads to the announcer. -/
theorem Genuine.sender_leads {b : SBus} {e : CallEnv} {p : Ptr} (genuine : Genuine s net)
    (shared : pk.smsg.socket = s.mcsock pk.dst)
    (from_ : s.at pk.smsg.ip pk.smsg.port = some pk.src)
    (held : (net.inst pk.dst).name = pk.smsg.msg)
    (told : (net.inst pk.dst).scontacts.findIpPort pk.smsg.ip pk.smsg.port = none →
      ∀ q ∈ (net.inst pk.dst).scontacts.findName pk.smsg.msg,
        route s net pk.dst ((net.inst pk.dst).scontacts.info q) = some pk.src)
    (found : (net.inst pk.dst).sender e pk.smsg = some (p, b)) :
    route s net pk.dst (b.scontacts.info p) = some pk.src := by
  have mcsock_eq := (genuine.placed pk.dst).2.2
  have records := genuine.records pk.dst
  have unheld := findFromSocket_eq_none (s := pk.smsg.socket) (genuine.sound pk.dst)
    fun q => shared ▸ (records q).1
  rcases SBus.sender_cases found with ⟨held, _⟩ | ⟨_, addressed, rfl⟩ | ⟨_, missing, named, rfl⟩ |
    ⟨_, missing, _, _, rfl, rfl⟩
  · rw [unheld] at held
    cases held
  · rw [if_neg (not_not.mpr (shared.trans mcsock_eq.symm))]
    obtain ⟨ip_eq, port_eq⟩ := findIpPort_address (genuine.sound pk.dst) addressed
    exact (records p).route_eq (by rw [ip_eq, port_eq, from_])
  · exact told missing p (held ▸ named)
  · rw [info_file_self, route, SBus.newcomer, SBus.recordedSocket,
      if_neg (not_not.mpr (shared.trans mcsock_eq.symm))]
    exact (if_neg (by decide : ¬ (0 : Int) ≤ -1)).trans from_

theorem Genuine.notifies {event : Event n} (genuine : Genuine s net)
    (told : AttributesAnnouncement s net event) : NotifiesAnnouncer s net event := by
  cases event with
  | setName i name => trivial
  | multicast i msgtag msg => trivial
  | deliver pk env w =>
      intro contested held t call
      have named := genuine.holds pk.dst _ held
      obtain ⟨mem, call⟩ := Option.ite_none_right_eq_some.mp call
      obtain ⟨⟨peer, b, actions⟩, processed, call⟩ := Option.bind_eq_some_iff.mp call
      have authentic := genuine.wired.flight pk mem
      rcases authentic.origin with ⟨shared, from_, apart⟩ | ⟨plain, _⟩
      · have other : ¬ (net.inst pk.dst).isSelf pk.smsg := by
          rintro ⟨ip_eq, port_eq⟩
          rw [ip_eq, port_eq, (genuine.placed pk.dst).1, (genuine.placed pk.dst).2.1,
            s.at_eq_some_iff.mpr ⟨rfl, rfl⟩] at from_
          exact apart (Option.some.inj from_).symm
        obtain ⟨p, d, found, handled⟩ := SBus.processSMsg_eq_some authentic.data other processed
        have leads := genuine.sender_leads shared from_ named (told contested held) found
        have same := (SBus.sender_changes (fun _ _ _ => True) (genuine.sound pk.dst) trivial
          (fun _ => trivial) found).2
        have own : (d.touch env.lookup.now p).name = pk.smsg.msg := by
          rw [SBus.touch, same]
          exact named
        have sends : Sends { net.setInst pk.dst b with flight := net.flight.erase pk } t pk.dst
            pk.src sbusNametaken pk.smsg.msg :=
          sends_nametaken own (authentic.announced contested) leads handled call
        exact sends
      · rw [plain] at contested
        cases contested

/-- In every run in which the announcements are attributed right, every one that
was contested when it was made, and still is when the holder of the name
processes it, is answered with NAMETAKEN to the announcer. -/
theorem announcers_notified (s : Site n) (events : List (Event n))
    (told : EachStep (Det (step s)) (AttributesAnnouncement s) (start s) events) :
    EachStep (Det (step s)) (NotifiesAnnouncer s) (start s) events :=
  .of_invariant genuine_start told (fun _ _ _ genuine _ call => genuine.step call)
    fun _ _ genuine told => genuine.notifies told

/-- Three instances on one machine. -/
def threeSite : Site 3 where
  ip _ := 1
  source _ := 1
  port i := BitVec.ofNat 16 (10 + i.val)
  mcsock _ := 4
  oneInterface _ := rfl
  distinct i j _ same := by
    revert same
    revert i j
    decide
  located _ := by decide
  valid _ := by decide

/-- The third instance is heard once and becomes the contact with the name of
the first, which then sends it the notice meant for the second. -/
theorem notice_misrouted :
    ¬ ∀ (n : Nat) (s : Site n) (events : List (Event n)),
      EachStep (Det (step s)) (NotifiesAnnouncer s) (start s) events := by
  intro always
  have run := always 3 threeSite
    [.setName 0 [97], .multicast 2 1 [],
     .deliver ⟨2, 0, ⟨1, 1, 12, 4, [], false⟩, false⟩
       ⟨⟨10, 0, []⟩, ⟨10, 1, []⟩, ⟨⟨10, 2, []⟩, 5, 0⟩⟩ ⟨100, 6⟩,
     .setName 1 [97],
     .deliver ⟨1, 0, ⟨-1, 1, 11, 4, [97], false⟩, true⟩
       ⟨⟨11, 1, []⟩, ⟨11, 2, []⟩, ⟨⟨11, 3, []⟩, 5, 0⟩⟩ ⟨100, 6⟩]
  exact absurd run (by decide +kernel)

/-- The second instance is heard before it announces the name. -/
theorem announcers_notified_known :
    EachStep (Det (step threeSite)) (NotifiesAnnouncer threeSite) (start threeSite)
      [.setName 0 [97], .multicast 1 1 [],
       .deliver ⟨1, 0, ⟨1, 1, 11, 4, [], false⟩, false⟩
         ⟨⟨10, 0, []⟩, ⟨10, 1, []⟩, ⟨⟨10, 2, []⟩, 5, 0⟩⟩ ⟨100, 6⟩,
       .setName 1 [97],
       .deliver ⟨1, 0, ⟨-1, 1, 11, 4, [97], false⟩, true⟩
         ⟨⟨11, 1, []⟩, ⟨11, 2, []⟩, ⟨⟨11, 3, []⟩, 5, 0⟩⟩ ⟨100, 6⟩] :=
  announcers_notified threeSite _ (by decide +kernel)

end Net

end LibSBus
