import LibSBus.SBus.Replies

/-!
Several instances that set the same name. Nothing arbitrates between them: an
instance that processes another one's announcement while it has the name itself
sends NAMETAKEN, whoever set the name first. So two announcements that cross
leave nobody without a notice. One instance is left without exactly if some
announcer was never processed by an instance that had the name.
-/

namespace LibSBus

open Lib SContacts

namespace Talk

variable {n : Nat}

/-- Instance `i` sets the name. -/
def Sets (events : List (Event n)) (name : CString) (i : Fin n) : Prop :=
  .net (.setName i name) ∈ events

/-- An instance sets the name, or processes a message. -/
def SetsOrDelivers (name : CString) : Event n → Prop
  | .net (.setName _ other) => other = name
  | .net (.deliver _ _ _) => True
  | _ => False

/-- The action of instance `dst` is a NAMETAKEN for the name that is written to `i`. -/
def Notifies (u : Talk n) (dst i : Fin n) (name : CString) : Action → Prop
  | .unicast msgtag socket msg =>
      msgtag = sbusNametaken ∧ msg = name ∧ reach u.net dst socket = some i
  | _ => False

instance (u : Talk n) (dst i : Fin n) (name : CString) : DecidablePred (Notifies u dst i name)
  | .unicast _ _ _ => inferInstanceAs (Decidable (_ ∧ _ ∧ _))
  | .connect _ _ _ | .multicast _ _ => .isFalse id

/-- Processing a message sends no NAMETAKEN for the name to `i`. -/
def Spares (s : Site n) (i : Fin n) (name : CString) (t : Talk n) : Event n → Prop
  | .net (.deliver pk env w) =>
      ∀ u ∈ step s t (.net (.deliver pk env w)),
        ∀ action ∈ (asked t.net (.net (.deliver pk env w))).2.2, ¬ Notifies u pk.dst i name action
  | _ => True

instance (s : Site n) (i : Fin n) (name : CString) (t : Talk n) :
    DecidablePred (Spares s i name t)
  | .net (.deliver _ _ _) => inferInstanceAs (Decidable (∀ u ∈ step s t _, ∀ action ∈ _, ¬ _))
  | .net (.setName _ _) | .net (.multicast _ _ _) | .send _ _ _ _ _ _ => .isTrue trivial

def twoSite : Site 2 where
  ip _ := 1
  source _ := 1
  port i := BitVec.ofNat 16 (10 + i.val)
  mcsock _ := 4
  oneInterface _ := rfl
  distinct i j _ same := by
    revert same
    revert i j
    decide
  located _ := by decide
  valid _ := by decide

/-- Two instances set the name before either has processed the announcement of the
other, and each sends the other one the notice. -/
theorem announcements_cross :
    ¬ ∀ (n : Nat) (s : Site n) (name : CString) (events : List (Event n)),
      (∀ i, ((start s).net.inst i).name ≠ name) →
      (∀ event ∈ events, SetsOrDelivers name event) →
      (∃ i j, i ≠ j ∧ Sets events name i ∧ Sets events name j) →
        ∃ i, Sets events name i ∧
          EachStep (Det (step s)) (Spares s i name) (start s) events := by
  intro always
  obtain ⟨i, -, spared⟩ := always 2 twoSite [97]
    [.net (.setName 0 [97]), .net (.setName 1 [97]),
     .net (.deliver ⟨0, 1, ⟨sbusManameis, 1, 10, 4, [97], false⟩, false⟩
       ⟨⟨10, 0, []⟩, ⟨10, 1, []⟩, ⟨⟨10, 2, []⟩, 5, 0⟩⟩ ⟨100, 6⟩),
     .net (.deliver ⟨1, 0, ⟨sbusManameis, 1, 11, 4, [97], false⟩, true⟩
       ⟨⟨11, 0, []⟩, ⟨11, 1, []⟩, ⟨⟨11, 2, []⟩, 5, 0⟩⟩ ⟨101, 7⟩)]
    (by decide) (by simp [SetsOrDelivers]) ⟨0, 1, by decide, by simp [Sets], by simp [Sets]⟩
  revert spared
  revert i
  decide +kernel

/-- Another instance does not have the name when it processes the announcement of it
by `i`. -/
def Uncontested (i : Fin n) (name : CString) (t : Talk n) : Event n → Prop
  | .net (.deliver pk _ _) =>
      pk.src = i → ¬ (t.net.inst pk.dst).isSelf pk.smsg → pk.smsg.msgtag = sbusManameis →
        pk.smsg.msg = name → (t.net.inst pk.dst).name ≠ name
  | _ => True

instance (i : Fin n) (name : CString) (t : Talk n) : DecidablePred (Uncontested i name t)
  | .net (.deliver _ _ _) => inferInstanceAs (Decidable (_ → ¬ _ → _ → _ → ¬ _))
  | .net (.setName _ _) | .net (.multicast _ _ _) | .send _ _ _ _ _ _ => .isTrue trivial

/-- An announcement of the name that an instance with the name processes, and that
comes when no contact has its descriptor or its address, is attributed to nobody
known or to a contact that leads to its sender. -/
def AttributesName (s : Site n) (name : CString) (t : Talk n) : Event n → Prop
  | .net (.deliver pk _ _) =>
      pk.smsg.msgtag = sbusManameis → pk.smsg.msg = name → (t.net.inst pk.dst).name = name →
        (t.net.inst pk.dst).scontacts.findFromSocket pk.smsg.socket = none →
        (t.net.inst pk.dst).scontacts.findIpPort pk.smsg.ip pk.smsg.port = none →
          ∀ q ∈ (t.net.inst pk.dst).scontacts.findName name,
            Net.route s t.net pk.dst ((t.net.inst pk.dst).scontacts.info q) = some pk.src
  | _ => True

instance (s : Site n) (name : CString) (t : Talk n) : DecidablePred (AttributesName s name t)
  | .net (.deliver _ _ _) =>
      inferInstanceAs (Decidable (_ → _ → _ → _ → _ → ∀ _ ∈ _, _))
  | .net (.setName _ _) | .net (.multicast _ _ _) | .send _ _ _ _ _ _ => .isTrue trivial

variable {s : Site n} {t u : Talk n} {net net' : Net n} {i j : Fin n} {w : Wire}
  {contested : Fin n → Bool} {actions : List Action} {pk : Packet n} {event : Event n}
  {name : CString} {q : Ptr}

/-- A message to a contact that leads somewhere is written. -/
theorem written_of_route {b b' : SBus} {env : SendEnv} {msgtag res : Int} {msg : CString}
    {peer : SBusPeer} (call : actions.foldlM (Net.perform s i contested w) net = some net')
    (sent : b.send env msgtag peer msg = (res, b', actions))
    (known : b.scontacts.findPeer peer = some q)
    (leads : Net.route s net i (b.scontacts.info q) = some j) :
    ∃ socket, .unicast msgtag socket msg ∈ actions := by
  rcases SBus.send_cases _ _ _ sent with ⟨unknown, _⟩ | ⟨q', found, ⟨_, _, rfl⟩ |
    ⟨_, _, _, _, rfl⟩ | ⟨_, _, failed, _, rfl⟩ | ⟨shut, unlocated, _⟩⟩
  · rw [known] at unknown
    cases unknown
  · exact ⟨_, List.mem_singleton_self _⟩
  · exact ⟨_, List.mem_cons_of_mem _ (List.mem_singleton_self _)⟩
  · -- connecting is taken to succeed
    obtain ⟨net₁, connected, _⟩ := Option.bind_eq_some_iff.mp call
    exact absurd (connect_fds connected).1 (Int.not_le.mpr failed)
  · obtain rfl := Option.some.inj (known.symm.trans found)
    rw [Net.route, if_neg (Int.not_le.mpr shut)] at leads
    have listens := (s.at_eq_some_iff.mp leads).1
    rw [unlocated] at listens
    exact absurd listens (s.located j)

/-- An instance that processes an announcement of its name writes a NAMETAKEN. -/
theorem Accounted.nametaken_written {env : StepEnv} (accounted : Accounted s t)
    (taken : Talk.step s t (.net (.deliver pk env w)) = some u)
    (other : ¬ (t.net.inst pk.dst).isSelf pk.smsg) (manameis : pk.smsg.msgtag = sbusManameis)
    (own : (t.net.inst pk.dst).name = pk.smsg.msg)
    (named : (t.net.inst pk.dst).scontacts.findFromSocket pk.smsg.socket = none →
      (t.net.inst pk.dst).scontacts.findIpPort pk.smsg.ip pk.smsg.port = none →
        ∀ q ∈ (t.net.inst pk.dst).scontacts.findName (t.net.inst pk.dst).name,
          Net.route s t.net pk.dst ((t.net.inst pk.dst).scontacts.info q) = some pk.src) :
    ∃ socket, .unicast sbusNametaken socket (t.net.inst pk.dst).name ∈
      (asked t.net (.net (.deliver pk env w))).2.2 := by
  have reply : (t.net.inst pk.dst).replyTag pk.smsg = some sbusNametaken := by
    rw [SBus.replyTag, if_pos own, manameis]
    rfl
  have mem := (deliver_eq_some taken).1
  rcases accounted.deliver_cases taken with ⟨_, self | silent⟩ |
    ⟨p, d, tag, res, b, _, found, replied, sent, call⟩
  · exact absurd self other
  · rw [reply] at silent
    cases silent
  obtain rfl := Option.some.inj (reply.symm.trans replied)
  obtain ⟨r, tied, ip_eq, port_eq, leads⟩ := accounted.sender_route mem found
  have leads : Net.route s t.net pk.dst r = some pk.src := by
    rcases leads with leads | ⟨unheld, missing, q, known, rfl⟩
    · exact leads
    · exact named unheld missing q known
  -- the contact has just been filed again under its id
  have known : ((d.touch env.lookup.now p).renamed env.rename pk.smsg p).scontacts.findPeer
      (d.scontacts.info p).peer =
        some ((d.touch env.lookup.now p).scontacts.updateName env.rename p pk.smsg.msg).1 := by
    rw [SBus.renamed, if_pos (.inl manameis)]
    exact findPeer_file
  exact written_of_route call sent known
    (accounted.contact_route mem found tied ip_eq port_eq leads known)

theorem Accounted.spares_iff (accounted : Accounted s t) (told : AttributesName s name t event)
    (taken : Talk.step s t event = some u) :
    Spares s i name t event ↔ Uncontested i name t event := by
  cases event with
  | send i env w msgtag peer msg => exact Iff.rfl
  | net event =>
      cases event with
      | setName i name => exact Iff.rfl
      | multicast i msgtag msg => exact Iff.rfl
      | deliver pk env w =>
          have named : pk.smsg.msgtag = sbusManameis → pk.smsg.msg = name →
              (t.net.inst pk.dst).name = name →
              (t.net.inst pk.dst).scontacts.findFromSocket pk.smsg.socket = none →
              (t.net.inst pk.dst).scontacts.findIpPort pk.smsg.ip pk.smsg.port = none →
                ∀ q ∈ (t.net.inst pk.dst).scontacts.findName (t.net.inst pk.dst).name,
                  Net.route s t.net pk.dst ((t.net.inst pk.dst).scontacts.info q) =
                    some pk.src := by
            intro manameis announces holds unheld missing q known
            rw [holds] at known
            exact told manameis announces holds unheld missing q known
          constructor
          · intro spared from_ other manameis announces holds
            have named := named manameis announces holds
            obtain ⟨socket, written⟩ := accounted.nametaken_written taken other manameis
              (holds.trans announces.symm) named
            obtain ⟨j, reached, rfl⟩ := accounted.reply_reaches (P := fun j => j = pk.src)
              taken rfl
              (fun unheld missing q known => ⟨pk.src, named unheld missing q known, rfl⟩) written
            exact spared u taken _ written ⟨rfl, holds, from_ ▸ reached⟩
          · intro uncontested v taken action written notifies
            cases action with
            | connect ip port fd => exact notifies
            | multicast msgtag msg => exact notifies
            | unicast msgtag socket msg =>
                obtain ⟨rfl, rfl, reached⟩ := notifies
                obtain ⟨other, reply, holds⟩ := accounted.reply_of_written taken written
                obtain ⟨own, ⟨_, different⟩ | ⟨manameis, _⟩⟩ := SBus.replyTag_cases reply
                · cases different
                have announces : pk.smsg.msg = msg := own.symm.trans holds.symm
                have named := named manameis announces holds.symm
                obtain ⟨j, reached', rfl⟩ := accounted.reply_reaches (P := fun j => j = pk.src)
                  taken rfl
                  (fun unheld missing q known => ⟨pk.src, named unheld missing q known, rfl⟩)
                  written
                have from_ : pk.src = i := Option.some.inj (reached'.symm.trans reached)
                exact uncontested from_ other manameis announces holds.symm

/-- In every run in which the announcements of the name that an instance with the
name processes are attributed right, one of the instances that set the name is
sent no NAMETAKEN for it exactly if one of them announces it only to instances that
do not have the name when they process the announcement. -/
theorem one_spared_iff (s : Site n) (name : CString) (events : List (Event n))
    (run : Run (Det (step s)) (start s) events u)
    (told : EachStep (Det (step s)) (AttributesName s name) (start s) events) :
    (∃ i, Sets events name i ∧ EachStep (Det (step s)) (Spares s i name) (start s) events) ↔
      ∃ i, Sets events name i ∧ EachStep (Det (step s)) (Uncontested i name) (start s) events :=
  exists_congr fun _ => and_congr_right fun _ =>
    run.eachStep_iff accounted_start told (fun _ _ _ accounted _ _ taken => accounted.step taken)
      fun _ _ _ accounted told taken => accounted.spares_iff told taken

/-- The second instance sets the name when it has already processed the announcement
of the first, and is sent the notice. -/
theorem one_spared_in_turn :
    ∃ events : List (Event 2), Sets events [97] 0 ∧ Sets events [97] 1 ∧
      ∃ i, Sets events [97] i ∧
        EachStep (Det (step twoSite)) (Spares twoSite i [97]) (start twoSite) events := by
  let events : List (Event 2) :=
    [.net (.setName 0 [97]),
     .net (.deliver ⟨0, 1, ⟨sbusManameis, 1, 10, 4, [97], false⟩, false⟩
       ⟨⟨10, 0, []⟩, ⟨10, 1, []⟩, ⟨⟨10, 2, []⟩, 5, 0⟩⟩ ⟨100, 6⟩),
     .net (.setName 1 [97]),
     .net (.deliver ⟨1, 0, ⟨sbusManameis, 1, 11, 4, [97], false⟩, true⟩
       ⟨⟨11, 0, []⟩, ⟨11, 1, []⟩, ⟨⟨11, 2, []⟩, 5, 0⟩⟩ ⟨101, 7⟩)]
  obtain ⟨u, run⟩ : ∃ u, events.foldlM (step twoSite) (start twoSite) = some u :=
    Option.isSome_iff_exists.mp (by decide +kernel)
  have first : Sets events [97] 0 := List.mem_cons_self
  have second : Sets events [97] 1 := by simp [Sets, events]
  exact ⟨events, first, second, (one_spared_iff twoSite [97] events (run_det_iff.mpr run)
    (by decide +kernel)).mpr ⟨0, first, by decide +kernel⟩⟩

end Talk

end LibSBus
