import LibSBus.SBus.Talk

/-!
Where the automatic replies go: NAMETAKEN to an instance that has announced the
name, MANAMEIS to the one whose search for it is processed. A reply follows the
contact the message was attributed to, and that leads to the sender wherever it
was found by its descriptor or its address. What is left is the contact found by
the bus's own name, as in the announcements that go astray.
-/

namespace LibSBus

open Lib SContacts

namespace Talk

variable {n : Nat}

/-- A NAMETAKEN goes to an instance that has announced the name, a MANAMEIS to the
sender of the search for the name that is processed. -/
def GoesRight (t u : Talk n) (pk : Packet n) : Action → Prop
  | .unicast msgtag socket msg =>
      (msgtag = sbusNametaken → ∃ j ∈ reach u.net pk.dst socket, (j, msg) ∈ t.announced) ∧
      (msgtag = sbusManameis → pk.smsg.msgtag = sbusFind ∧ pk.smsg.msg = msg ∧
        reach u.net pk.dst socket = some pk.src)
  | _ => True

instance (t u : Talk n) (pk : Packet n) : DecidablePred (GoesRight t u pk)
  | .unicast _ _ _ => inferInstanceAs (Decidable (_ ∧ _))
  | .connect _ _ _ | .multicast _ _ => .isTrue trivial

/-- What processing a message makes an instance send goes where it should. -/
def RepliesRight (s : Site n) (t : Talk n) : Event n → Prop
  | .net (.deliver pk env w) =>
      ∀ u ∈ step s t (.net (.deliver pk env w)),
        ∀ action ∈ (asked t.net (.net (.deliver pk env w))).2.2, GoesRight t u pk action
  | _ => True

instance (s : Site n) (t : Talk n) : DecidablePred (RepliesRight s t)
  | .net (.deliver _ _ _) => inferInstanceAs (Decidable (∀ u ∈ step s t _, ∀ action ∈ _, _))
  | .net (.setName _ _) | .net (.multicast _ _ _) | .send _ _ _ _ _ _ => .isTrue trivial

/-- The third instance is heard once and becomes the contact with the name of the
first. It is sent the notice the second one should get, and has announced nothing. -/
theorem replies_stray :
    ¬ ∀ (n : Nat) (s : Site n) (events : List (Event n)),
      EachStep (Det (step s)) (RepliesRight s) (start s) events := by
  intro always
  have run := always 3 Net.threeSite
    [.net (.setName 0 [97]), .net (.multicast 2 1 []),
     .net (.deliver ⟨2, 0, ⟨1, 1, 12, 4, [], false⟩, false⟩
       ⟨⟨10, 0, []⟩, ⟨10, 1, []⟩, ⟨⟨10, 2, []⟩, 5, 0⟩⟩ ⟨100, 6⟩),
     .net (.setName 1 [97]),
     .net (.deliver ⟨1, 0, ⟨-1, 1, 11, 4, [97], false⟩, true⟩
       ⟨⟨11, 1, []⟩, ⟨11, 2, []⟩, ⟨⟨11, 3, []⟩, 5, 0⟩⟩ ⟨100, 6⟩)]
  exact absurd run (by decide +kernel)

/-- When the replies go right: a message that asks for one and comes when no contact
has its descriptor or its address either is attributed to nobody known, or to a
contact that leads to its sender, or, if it is answered by NAMETAKEN, to an instance
that has announced the name as well. -/
def Attributes (s : Site n) (t : Talk n) : Event n → Prop
  | .net (.deliver pk _ _) =>
      ∀ tag ∈ (t.net.inst pk.dst).replyTag pk.smsg,
        (t.net.inst pk.dst).scontacts.findFromSocket pk.smsg.socket = none →
        (t.net.inst pk.dst).scontacts.findIpPort pk.smsg.ip pk.smsg.port = none →
          ∀ q ∈ (t.net.inst pk.dst).scontacts.findName pk.smsg.msg,
            ∃ j ∈ Net.route s t.net pk.dst ((t.net.inst pk.dst).scontacts.info q),
              j = pk.src ∨ tag = sbusNametaken ∧ (j, pk.smsg.msg) ∈ t.announced
  | _ => True

instance (s : Site n) (t : Talk n) : DecidablePred (Attributes s t)
  | .net (.deliver _ _ _) => inferInstanceAs (Decidable (∀ _ ∈ _, _ → _ → ∀ _ ∈ _, ∃ _ ∈ _, _ ∨ _))
  | .net (.setName _ _) | .net (.multicast _ _ _) | .send _ _ _ _ _ _ => .isTrue trivial

variable {s : Site n} {t u : Talk n} {net net' : Net n} {i j : Fin n} {w : Wire}
  {contested : Fin n → Bool} {actions : List Action} {pk : Packet n} {event : Event n}
  {p q : Ptr} {e : CallEnv} {d : SBus}

/-- A record that shows the descriptor of a frame leads to the sender of the frame. -/
theorem Accounted.frame_route {r : SPeerInfo} (accounted : Accounted s t)
    (mem : pk ∈ t.net.flight) (own : pk.smsg.socket ≠ s.mcsock pk.dst)
    (shown : r.socket = pk.smsg.socket) : Net.route s t.net pk.dst r = some pk.src := by
  obtain ⟨valid, leads, _⟩ := accounted.frame mem own
  rw [Net.route, shown, if_pos valid]
  exact leads

/-- The record a sender is first entered with leads to it. -/
theorem Accounted.newcomer_route {r : SPeerInfo} (accounted : Accounted s t)
    (mem : pk ∈ t.net.flight) (entered : r = (t.net.inst pk.dst).newcomer pk.smsg) :
    Tied s t.links t.net pk.dst r.ip r.port r.socket ∧
      Net.route s t.net pk.dst r = some pk.src := by
  have mcsock_eq := (accounted.genuine.placed pk.dst).2.2
  have shown : r.socket = (t.net.inst pk.dst).recordedSocket pk.smsg := by rw [entered]; rfl
  have address : r.ip = pk.smsg.ip ∧ r.port = pk.smsg.port := by rw [entered]; exact ⟨rfl, rfl⟩
  unfold SBus.recordedSocket at shown
  rw [mcsock_eq] at shown
  by_cases own : pk.smsg.socket = s.mcsock pk.dst
  · obtain ⟨from_, here⟩ := accounted.shared mem own
    rw [if_neg (not_not.mpr own)] at shown
    rw [← address.1, ← address.2] at from_ here
    rw [← shown] at here
    exact ⟨here, here.1.route_eq from_⟩
  · obtain ⟨_, _, here⟩ := accounted.frame mem own
    rw [if_pos own] at shown
    rw [← address.1, ← address.2, ← shown] at here
    exact ⟨here, accounted.frame_route mem own shown⟩

/-- Some record with the address of the contact a message is attributed to leads to
the sender, unless the contact was found by the bus's own name. -/
theorem Accounted.sender_route (accounted : Accounted s t) (mem : pk ∈ t.net.flight)
    (found : (t.net.inst pk.dst).sender e pk.smsg = some (p, d)) :
    ∃ r : SPeerInfo, Tied s t.links t.net pk.dst r.ip r.port r.socket ∧
      r.ip = (d.scontacts.info p).ip ∧ r.port = (d.scontacts.info p).port ∧
      (Net.route s t.net pk.dst r = some pk.src ∨
        (t.net.inst pk.dst).scontacts.findFromSocket pk.smsg.socket = none ∧
        (t.net.inst pk.dst).scontacts.findIpPort pk.smsg.ip pk.smsg.port = none ∧
        ∃ q ∈ (t.net.inst pk.dst).scontacts.findName (t.net.inst pk.dst).name,
          r = (t.net.inst pk.dst).scontacts.info q) := by
  have sound := accounted.genuine.sound pk.dst
  have tied := accounted.tied pk.dst
  have mcsock_eq := (accounted.genuine.placed pk.dst).2.2
  rcases SBus.sender_cases found with ⟨held, rfl⟩ | ⟨_, addressed, rfl⟩ |
    ⟨unheld, missing, named, rfl⟩ | ⟨_, _, _, _, rfl, rfl⟩
  · have shown : ((t.net.inst pk.dst).scontacts.info p).socket = pk.smsg.socket :=
      (sound.sockets _ p held).2
    have own : pk.smsg.socket ≠ s.mcsock pk.dst := by
      rw [← shown]
      exact (accounted.genuine.records pk.dst p).1
    exact ⟨_, tied p (.inr (.inr (.inr ⟨_, held⟩))), rfl, rfl,
      .inl (accounted.frame_route mem own shown)⟩
  · obtain ⟨ip_eq, port_eq⟩ := findIpPort_address sound addressed
    by_cases own : pk.smsg.socket = s.mcsock pk.dst
    · rw [if_neg (not_not.mpr (own.trans mcsock_eq.symm))]
      have here := tied p (.inr (.inl ⟨_, addressed⟩))
      refine ⟨_, here, rfl, rfl, .inl (here.1.route_eq ?_)⟩
      rw [ip_eq, port_eq]
      exact (accounted.shared mem own).1
    · -- the record the descriptor was written to, which `p` need not show
      obtain ⟨_, _, here⟩ := accounted.frame mem own
      rw [← ip_eq, ← port_eq] at here
      rw [if_pos (by rw [mcsock_eq]; exact own)]
      refine ⟨{ (t.net.inst pk.dst).scontacts.info p with
        socket := pk.smsg.socket, name := e.stale }, here, ?_, ?_,
        .inl (accounted.frame_route mem own rfl)⟩
      · exact info_file_keeps_at (P := fun r => _ = r.ip) rfl rfl
      · exact info_file_keeps_at (P := fun r => _ = r.port) rfl rfl
  · exact ⟨_, tied p (.inr (.inr (.inl ⟨_, named⟩))), rfl, rfl,
      .inr ⟨unheld, missing, p, named, rfl⟩⟩
  · obtain ⟨here, leads⟩ := accounted.newcomer_route mem rfl
    rw [info_file_self]
    exact ⟨_, here, rfl, rfl, .inl leads⟩

/-- A send writes nothing but its message. -/
theorem written_by_send {b b' : SBus} {env : SendEnv} {msgtag tag res : Int} {msg text : CString}
    {peer : SBusPeer} {socket : SocketType}
    (sent : b.send env msgtag peer msg = (res, b', actions))
    (written : .unicast tag socket text ∈ actions) : tag = msgtag ∧ text = msg := by
  rcases SBus.send_cases _ _ _ sent with ⟨_, _, rfl⟩ | ⟨q, _, ⟨_, _, rfl⟩ | ⟨_, _, _, _, rfl⟩ |
    ⟨_, _, _, _, rfl⟩ | ⟨_, _, _, rfl⟩⟩
  · cases written
  · obtain ⟨rfl, _, rfl⟩ := Action.unicast.inj (List.mem_singleton.mp written)
    exact ⟨rfl, rfl⟩
  · obtain ⟨rfl, _, rfl⟩ : tag = msgtag ∧ socket = env.connect ∧ text = msg := by
      simpa using written
    exact ⟨rfl, rfl⟩
  · simp at written
  · split at written <;> simp at written

/-- It is written where the record of its contact leads. -/
theorem reach_of_route {b b' : SBus} {env : SendEnv} {msgtag tag res : Int} {msg text : CString}
    {peer : SBusPeer} {socket : SocketType}
    (call : actions.foldlM (Net.perform s i contested w) net = some net')
    (sent : b.send env msgtag peer msg = (res, b', actions))
    (written : .unicast tag socket text ∈ actions)
    (leads : ∀ q, b.scontacts.findPeer peer = some q →
      Net.route s net i (b.scontacts.info q) = some j) : reach net' i socket = some j := by
  rcases SBus.send_cases _ _ _ sent with ⟨_, _, rfl⟩ | ⟨q, found, ⟨open_, _, rfl⟩ |
    ⟨shut, _, _, _, rfl⟩ | ⟨_, _, _, _, rfl⟩ | ⟨_, _, _, rfl⟩⟩
  · cases written
  · obtain ⟨_, rfl, _⟩ := Action.unicast.inj (List.mem_singleton.mp written)
    have leads := leads q found
    rw [Net.route, if_pos open_] at leads
    obtain ⟨e, end_, remote⟩ := Option.bind_eq_some_iff.mp leads
    rw [reach, (Net.grows_performs call).ends _ _ _ end_, ← remote]
    rfl
  · have leads := leads q found
    rw [Net.route, if_neg (Int.not_le.mpr shut)] at leads
    obtain ⟨_, rfl, _⟩ : tag = msgtag ∧ socket = env.connect ∧ text = msg := by
      simpa using written
    obtain ⟨net₁, connected, rest⟩ := Option.bind_eq_some_iff.mp call
    rw [reach, (Net.grows_performs rest).ends _ _ _ (Net.connect_ends connected).1]
    exact leads
  · simp at written
  · split at written <;> simp at written

/-- A rename leaves a record with the id and the address of the one that is renamed. -/
theorem renamed_record (b : SBus) (e : CallEnv) (smsg : SMsg) (p : Ptr) :
    ∃ x, ((b.renamed e smsg p).scontacts.info x).peer = (b.scontacts.info p).peer ∧
      ((b.renamed e smsg p).scontacts.info x).ip = (b.scontacts.info p).ip ∧
      ((b.renamed e smsg p).scontacts.info x).port = (b.scontacts.info p).port := by
  unfold SBus.renamed
  split
  case isTrue announces =>
    refine ⟨(b.scontacts.updateName e p smsg.msg).1, ?_⟩
    rw [updateName, info_file_self]
    exact ⟨rfl, rfl, rfl⟩
  case isFalse quiet => exact ⟨p, rfl, rfl, rfl⟩

/-- When the reply is sent, the contact with the id of the sender leads where any
record with the sender's address did. -/
theorem Accounted.contact_route {now : Int} {rename : CallEnv} {r : SPeerInfo}
    (accounted : Accounted s t) (mem : pk ∈ t.net.flight)
    (found : (t.net.inst pk.dst).sender e pk.smsg = some (p, d))
    (tied : Tied s t.links t.net pk.dst r.ip r.port r.socket)
    (ip_eq : r.ip = (d.scontacts.info p).ip) (port_eq : r.port = (d.scontacts.info p).port)
    (leads : Net.route s t.net pk.dst r = some j)
    (known : ((d.touch now p).renamed rename pk.smsg p).scontacts.findPeer
      (d.scontacts.info p).peer = some q) :
    Net.route s t.net pk.dst (((d.touch now p).renamed rename pk.smsg p).scontacts.info q) =
      some j := by
  have mcsock_eq := (accounted.genuine.placed pk.dst).2.2
  have sound := accounted.genuine.sound pk.dst
  have frame := fun own => (accounted.frame mem (mcsock_eq ▸ own)).2.2
  obtain ⟨listed, here⟩ := SBus.listed_sender (accounted.tied pk.dst)
    (fun shared => (accounted.shared mem (mcsock_eq ▸ shared)).2) frame
    (fun own q found => by
      obtain ⟨ip_eq, port_eq⟩ := findIpPort_address sound found
      rw [ip_eq, port_eq]
      exact frame own) found
  have tied' : Tied s t.links t.net pk.dst _ _ _ :=
    SBus.listed_renamed (b := d.touch now p) listed rename pk.smsg here q
      (.inl ⟨_, known⟩)
  obtain ⟨first, _⟩ := SBus.sender_changes (fun _ _ _ => True) sound trivial (fun _ => trivial)
    found
  obtain ⟨second, _⟩ := (d.touch now p).renamed_changes (fun _ _ _ => True) rename pk.smsg p
  obtain ⟨A, assigned⟩ := accounted.assigned pk.dst
  obtain ⟨_, A', assigned', _⟩ := assigned.changes ((first.tail (.stamp _ now p)).trans second)
  -- the record found has the id of the renamed one, and so its address
  obtain ⟨x, peer_x, ip_x, port_x⟩ := renamed_record (d.touch now p) rename pk.smsg p
  have peer_q := (assigned'.sound.peers _ q known).2
  obtain ⟨ip_q, port_q⟩ := assigned'.address_eq (peer_q.trans peer_x.symm)
  exact tied.route_eq accounted.single tied' (ip_eq.trans (ip_x.symm.trans ip_q.symm))
    (port_eq.trans (port_x.symm.trans port_q.symm)) leads

/-- Processing a message asks for nothing, or it sends the reply the message asks for
to the contact it was attributed to. -/
theorem Accounted.deliver_cases {env : StepEnv} (accounted : Accounted s t)
    (taken : Talk.step s t (.net (.deliver pk env w)) = some u) :
    ((asked t.net (.net (.deliver pk env w))).2.2 = [] ∧
      ((t.net.inst pk.dst).isSelf pk.smsg ∨ (t.net.inst pk.dst).replyTag pk.smsg = none)) ∨
    ∃ p d tag res b, ¬ (t.net.inst pk.dst).isSelf pk.smsg ∧
      (t.net.inst pk.dst).sender env.lookup pk.smsg = some (p, d) ∧
      (t.net.inst pk.dst).replyTag pk.smsg = some tag ∧
      ((d.touch env.lookup.now p).renamed env.rename pk.smsg p).send env.reply tag
        (d.scontacts.info p).peer (t.net.inst pk.dst).name =
          (res, b, (asked t.net (.net (.deliver pk env w))).2.2) ∧
      (asked t.net (.net (.deliver pk env w))).2.2.foldlM
        (Net.perform s pk.dst (fun _ => false) w)
        { t.net.setInst pk.dst b with flight := t.net.flight.erase pk } = some u.net := by
  obtain ⟨mem, id, b, actions, net', processed, call, _, _, rfl⟩ := deliver_eq_some taken
  have asks : (asked t.net (.net (.deliver pk env w))).2.2 = actions := by
    rw [asked, processed]
    rfl
  rw [asks]
  have data := (accounted.genuine.wired.flight pk mem).data
  rcases SBus.processSMsg_cases processed with ⟨lost, _⟩ | ⟨_, own, _, _, rfl⟩ |
    ⟨_, own, p, d, found, handled⟩
  · rw [data] at lost
    cases lost
  · exact .inl ⟨rfl, .inl own⟩
  have name_eq : (d.touch env.lookup.now p).name = (t.net.inst pk.dst).name :=
    show d.name = _ from SBus.sender_name found
  have same : (d.touch env.lookup.now p).replyTag pk.smsg =
      (t.net.inst pk.dst).replyTag pk.smsg := by
    rw [SBus.replyTag, SBus.replyTag, name_eq]
  rcases SBus.handle_cases handled with ⟨silent, _, rfl⟩ | ⟨tag, res, replied, sent⟩
  · exact .inl ⟨rfl, .inr (same ▸ silent)⟩
  · rw [name_eq] at sent
    exact .inr ⟨p, d, tag, res, b, own, found, same ▸ replied, sent, call⟩

/-- What is written is the reply the message asks for. -/
theorem Accounted.reply_of_written {env : StepEnv} {tag : Int} {socket : SocketType}
    {msg : CString} (accounted : Accounted s t)
    (taken : Talk.step s t (.net (.deliver pk env w)) = some u)
    (written : .unicast tag socket msg ∈ (asked t.net (.net (.deliver pk env w))).2.2) :
    ¬ (t.net.inst pk.dst).isSelf pk.smsg ∧
      (t.net.inst pk.dst).replyTag pk.smsg = some tag ∧ msg = (t.net.inst pk.dst).name := by
  rcases accounted.deliver_cases taken with ⟨quiet, _⟩ |
    ⟨p, d, tag', res, b, other, _, replied, sent, _⟩
  · rw [quiet] at written
    cases written
  · obtain ⟨rfl, rfl⟩ := written_by_send sent written
    exact ⟨other, replied, rfl⟩

/-- The reply goes to the sender of the message it answers, or to where the contact
found by the bus's own name leads. -/
theorem Accounted.reply_reaches {env : StepEnv} {P : Fin n → Prop} {tag : Int}
    {socket : SocketType} {msg : CString} (accounted : Accounted s t)
    (taken : Talk.step s t (.net (.deliver pk env w)) = some u) (direct : P pk.src)
    (named : (t.net.inst pk.dst).scontacts.findFromSocket pk.smsg.socket = none →
      (t.net.inst pk.dst).scontacts.findIpPort pk.smsg.ip pk.smsg.port = none →
        ∀ q ∈ (t.net.inst pk.dst).scontacts.findName (t.net.inst pk.dst).name,
          ∃ j ∈ Net.route s t.net pk.dst ((t.net.inst pk.dst).scontacts.info q), P j)
    (written : .unicast tag socket msg ∈ (asked t.net (.net (.deliver pk env w))).2.2) :
    ∃ j ∈ reach u.net pk.dst socket, P j := by
  have mem := (deliver_eq_some taken).1
  rcases accounted.deliver_cases taken with ⟨quiet, _⟩ |
    ⟨p, d, tag', res, b, _, found, _, sent, call⟩
  · rw [quiet] at written
    cases written
  obtain ⟨r, tied, ip_eq, port_eq, leads⟩ := accounted.sender_route mem found
  obtain ⟨j, leads, right⟩ : ∃ j, Net.route s t.net pk.dst r = some j ∧ P j := by
    rcases leads with leads | ⟨unheld, missing, q, known, rfl⟩
    · exact ⟨pk.src, leads, direct⟩
    · obtain ⟨j, leads, right⟩ := named unheld missing q known
      exact ⟨j, leads, right⟩
  refine ⟨j, ?_, right⟩
  exact reach_of_route call sent written fun q known =>
    accounted.contact_route mem found tied ip_eq port_eq leads known

/-- Who a reply may go to: to an instance that has announced the name, or to the
sender of the search it answers. -/
def MayGet (t : Talk n) (pk : Packet n) (tag : Int) (j : Fin n) : Prop :=
  (tag = sbusNametaken → (j, pk.smsg.msg) ∈ t.announced) ∧ (tag = sbusManameis → j = pk.src)

theorem Accounted.sender_mayGet {tag : Int} (accounted : Accounted s t)
    (mem : pk ∈ t.net.flight) (reply : (t.net.inst pk.dst).replyTag pk.smsg = some tag) :
    MayGet t pk tag pk.src := by
  refine ⟨fun nametaken => ?_, fun _ => rfl⟩
  obtain ⟨_, ⟨_, rfl⟩ | ⟨manameis, rfl⟩⟩ := SBus.replyTag_cases reply
  · cases nametaken
  · exact accounted.traced.announced pk mem manameis

theorem Accounted.repliesRight (accounted : Accounted s t) (told : Attributes s t event) :
    RepliesRight s t event := by
  cases event with
  | send i env w msgtag peer msg => trivial
  | net event =>
      cases event with
      | setName i name => trivial
      | multicast i msgtag msg => trivial
      | deliver pk env w =>
          intro u taken action written
          cases action with
          | connect ip port fd => trivial
          | multicast msgtag msg => trivial
          | unicast tag socket msg =>
              have mem := (deliver_eq_some taken).1
              obtain ⟨_, reply, rfl⟩ := accounted.reply_of_written taken written
              obtain ⟨j, reached, announces, answers⟩ := accounted.reply_reaches taken
                (accounted.sender_mayGet mem reply) (fun unheld missing q known => by
                  rw [(SBus.replyTag_cases reply).1] at known
                  obtain ⟨j, leads, rfl | ⟨rfl, announces⟩⟩ :=
                    told tag reply unheld missing q known
                  · exact ⟨_, leads, accounted.sender_mayGet mem reply⟩
                  · exact ⟨j, leads, fun _ => announces, fun same => absurd same (by decide)⟩)
                written
              obtain ⟨own, ⟨find, rfl⟩ | ⟨manameis, rfl⟩⟩ := SBus.replyTag_cases reply
              · refine ⟨fun same => absurd same (by decide), fun _ => ⟨find, own.symm, ?_⟩⟩
                rw [← answers rfl]
                exact reached
              · exact ⟨fun _ => ⟨j, reached, own ▸ announces rfl⟩,
                  fun same => absurd same (by decide)⟩

/-- In every run in which the messages that ask for a reply are attributed right,
every NAMETAKEN goes to an instance that has announced the name, and every MANAMEIS
that answers a search to the instance that searches. -/
theorem replies_go_right (s : Site n) (events : List (Event n))
    (told : EachStep (Det (step s)) (Attributes s) (start s) events) :
    EachStep (Det (step s)) (RepliesRight s) (start s) events :=
  .of_invariant accounted_start told (fun _ _ _ accounted _ taken => accounted.step taken)
    fun _ _ accounted told => accounted.repliesRight told

/-- The second instance has sent a message before it searches for the name of the
first, which answers, and before it announces that name itself. -/
theorem replies_go_right_known :
    EachStep (Det (step Net.threeSite)) (RepliesRight Net.threeSite) (start Net.threeSite)
      [.net (.setName 0 [97]), .net (.multicast 1 1 []),
       .net (.deliver ⟨1, 0, ⟨1, 1, 11, 4, [], false⟩, false⟩
         ⟨⟨10, 0, []⟩, ⟨10, 1, []⟩, ⟨⟨10, 2, []⟩, 5, 0⟩⟩ ⟨100, 6⟩),
       .net (.multicast 1 sbusFind [97]),
       .net (.deliver ⟨1, 0, ⟨sbusFind, 1, 11, 4, [97], false⟩, false⟩
         ⟨⟨11, 1, []⟩, ⟨11, 2, []⟩, ⟨⟨11, 3, []⟩, 5, 0⟩⟩ ⟨100, 6⟩),
       .net (.setName 1 [97]),
       .net (.deliver ⟨1, 0, ⟨sbusManameis, 1, 11, 4, [97], false⟩, true⟩
         ⟨⟨12, 3, []⟩, ⟨12, 4, []⟩, ⟨⟨12, 5, []⟩, 7, 0⟩⟩ ⟨101, 8⟩)] :=
  replies_go_right Net.threeSite _ (by decide +kernel)

end Talk

end LibSBus
