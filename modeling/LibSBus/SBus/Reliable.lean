import LibSBus.SBus.Deliveries
import LibSBus.SBus.Transports

/-!
The cluster when nothing goes wrong: the network loses nothing and keeps the order,
every application announces its name before it sends anything else, and no contact
is idle for so long that a sweep removes it. Then the first message an instance
gets of another one is the announcement, nobody who was heard is forgotten, and
every message is received, in the order in which it was sent.
-/

namespace LibSBus

open Lib SContacts

namespace SContacts

variable {c : SContacts} {now : Int} {r : SPeerInfo} {e : CallEnv} {ip : IP} {port : Port}

/-- None of the contacts has been idle for too long. -/
def Busy (c : SContacts) (now : Int) : Prop :=
  ∀ it ∈ c.peers.entries, now - c.heap.lastActivity it.2 ≤ maxAllowedPeerinfoIdleS

instance (c : SContacts) (now : Int) : Decidable (c.Busy now) :=
  inferInstanceAs (Decidable (∀ it ∈ _, _))

theorem Busy.victims_eq (busy : c.Busy now) : c.victims now = ∅ := by
  rw [Set.eq_empty_iff_forall_notMem]
  rintro p ⟨_, ⟨k, entry⟩, idle⟩
  exact Int.not_lt.mpr (busy ⟨k, p⟩ (AList.mem_lookup_iff.mp entry)) idle

/-- A new contact leaves every address known, when the sweep that comes with it finds no
contact idle. -/
theorem findIpPort_enter (sound : IndexesSound c c.heap.live) (busy : c.Busy now)
    (known : c.findIpPort ip port ≠ none) :
    ((c.doCleanUp now).bump.file e r).2.findIpPort ip port ≠ none := by
  obtain ⟨x, found⟩ := Option.ne_none_iff_exists'.mp known
  have removed := removed_bump sound now
  rw [busy.victims_eq] at removed
  have kept : (c.doCleanUp now).bump.findIpPort ip port = some x :=
    (removed.addrs _ _).mpr ⟨found, fun y none => none.elim⟩
  by_cases here : ipnport2addr ip port = r.getAddr
  · exact Option.ne_none_iff_exists'.mpr
      ⟨_, Index.lookup_insert_eq_some.mpr (.inl ⟨here, rfl⟩)⟩
  · exact Option.ne_none_iff_exists'.mpr
      ⟨x, Index.lookup_insert_eq_some.mpr (.inr ⟨here, kept⟩)⟩

end SContacts

namespace SBus

variable {b b' d : SBus} {env : StepEnv} {smsg : SMsg} {p : Ptr} {e : CallEnv} {id : SBusPeer}
  {actions : List Action} {ip : IP} {port : Port}

theorem sender_findIpPort (sound : IndexesSound b.scontacts b.scontacts.heap.live)
    (busy : b.scontacts.Busy e.now) (call : b.sender e smsg = some (p, d))
    (known : b.scontacts.findIpPort ip port ≠ none) : d.scontacts.findIpPort ip port ≠ none := by
  rcases sender_cases call with ⟨_, rfl⟩ | ⟨_, _, rfl⟩ | ⟨_, _, _, rfl⟩ | ⟨_, _, _, _, _, rfl⟩
  · exact known
  · split
    case isTrue own => exact findIpPort_replace ⟨rfl, rfl, rfl⟩ known
    case isFalse shared => exact known
  · exact known
  · exact findIpPort_enter sound busy known

/-- Processing a message forgets no address while no contact is idle. -/
theorem processSMsg_findIpPort (sound : IndexesSound b.scontacts b.scontacts.heap.live)
    (busy : b.scontacts.Busy env.lookup.now) (data : smsg.error = false)
    (call : b.processSMsg env smsg = some (id, b', actions))
    (known : b.scontacts.findIpPort ip port ≠ none) : b'.scontacts.findIpPort ip port ≠ none := by
  rcases processSMsg_cases call with ⟨lost, _⟩ | ⟨_, _, _, rfl, _⟩ | ⟨_, _, p, d, found, handled⟩
  · rw [data] at lost
    cases lost
  · exact known
  · obtain ⟨changes, _⟩ := sender_changes (fun _ _ _ => True) sound trivial (fun _ => trivial) found
    have sound' := sound.changes (changes.tail (.stamp _ env.lookup.now p))
    have met : d.scontacts.findIpPort ip port ≠ none :=
      sender_findIpPort sound busy found known
    exact handle_keeps (I := fun c => c.findIpPort ip port ≠ none) (fun _ _ _ known => known)
      (fun _ _ _ _ _ same _ known => findIpPort_replace same known) sound' rfl handled met

end SBus

namespace Cluster

variable {n : Nat} {s : Site n} {owns : Fin n → CString → Prop} {c c' : Cluster n} {net : Net n}
  {i j : Fin n} {event : Event n}

/-- An instance sets a name it owns, and an application has sent its announcement before
it sends a user message. The network does nothing to what is on its way, nobody else
connects, and no contact is idle for too long when a message is processed. -/
def Regular (owns : Fin n → CString → Prop) (c : Cluster n) : Event n → Prop
  | .setName i name _ => owns i name ∧ name.length < 2 ^ 31
  | .multicast i msgtag msg _ => c.sent i ≠ [] ∧ 0 < toShort msgtag ∧ msg.length < 2 ^ 31
  | .network _ _ => False
  | .inLoop _ env => env.Undisturbed
  | .turn i env _ => (c.station i).bus.scontacts.Busy env.lookup.now

instance [∀ i name, Decidable (owns i name)] (c : Cluster n) :
    (event : Event n) → Decidable (Regular owns c event)
  | .setName _ _ _ => inferInstanceAs (Decidable (_ ∧ _))
  | .multicast _ _ _ _ => inferInstanceAs (Decidable (_ ∧ _))
  | .network _ _ => .isFalse id
  | .inLoop _ _ => inferInstanceAs (Decidable (_ ∧ _))
  | .turn i env _ => inferInstanceAs (Decidable ((c.station i).bus.scontacts.Busy env.lookup.now))

/-- Nothing is missing. The first message of an instance is an announcement, and one of
which something was got is known by its address. -/
structure Complete (s : Site n) (c : Cluster n) : Prop where
  order : ∀ i j, j ≠ i → got s c i j ++ due s c i j = (c.sent j).map cut
  first : ∀ j x, (c.sent j).head? = some x → x.1 = sbusManameis
  known : ∀ i j, j ≠ i → got s c i j ≠ [] →
    (c.station i).bus.scontacts.findIpPort (s.ip j) (s.port j) ≠ none

/-- So the first message an instance processes of another one is the announcement. -/
theorem Complete.orderly (complete : Complete s c) (refined : Refined s owns c net)
    (regular : Regular owns c event) : Orderly s owns c event := by
  cases event with
  | setName i name accepted => exact regular
  | multicast i msgtag msg accepted => exact regular.2
  | network j wire => exact regular.elim
  | inLoop i env => exact regular
  | turn i env accepted =>
      intro smsg front foreign unknown
      obtain ⟨rest, queue⟩ := List.head?_eq_some_iff.mp front
      have pending : (c.station i).pending =
          smsg :: (rest ++ (c.station i).messenger.inbound.map
            (Datagram.message (c.station i).messenger.mcsock)) := by
        rw [Station.pending, queue]
        rfl
      have mem : smsg ∈ (c.station i).pending := by
        rw [pending]
        exact List.mem_cons_self
      obtain ⟨pk, flight, rfl, rfl⟩ := refined.mirrors.packet mem foreign
      obtain ⟨said, informed⟩ := refined.informed
      obtain ⟨heard, _⟩ := informed.flight pk flight
      have sender : s.From pk.src pk.smsg := ⟨heard.ip, heard.port⟩
      rw [heard.ip, heard.port] at unknown
      have nothing : got s c pk.dst pk.src = [] := by
        by_contra something
        exact complete.known pk.dst pk.src heard.other something unknown
      have all := complete.order pk.dst pk.src heard.other
      rw [nothing, List.nil_append, due, pending,
        List.filter_cons_of_pos (by simpa using sender), List.map_cons] at all
      obtain ⟨x, later, sent, shown, _⟩ := List.map_eq_cons_iff.mp all.symm
      have announced : x.1 = sbusManameis :=
        complete.first pk.src x (by rw [sent, List.head?_cons])
      calc pk.smsg.msgtag = toShort x.1 := (congrArg Prod.fst shown).symm
        _ = toShort sbusManameis := by rw [announced]
        _ = sbusManameis := by decide

/-- Who was heard is known after any effect that forgets nobody. -/
theorem Complete.known_same (complete : Complete s c) (other : j ≠ i)
    (received : c'.received i = c.received i)
    (table : (c'.station i).bus.scontacts = (c.station i).bus.scontacts)
    (some_ : got s c' i j ≠ []) :
    (c'.station i).bus.scontacts.findIpPort (s.ip j) (s.port j) ≠ none := by
  rw [table]
  rw [got, received] at some_
  exact complete.known i j other some_

theorem Complete.step (complete : Complete s c) (regular : Regular owns c event)
    (effect : Effect s c c' event) : Complete s c' := by
  refine ⟨fun i j other => ?_, fun j x front => ?_, fun i j other some_ => ?_⟩
  · rcases effect.accounts other with ⟨more, same, sent⟩ | ⟨⟨k, wire, rfl⟩, _⟩
    · rw [same, sent, complete.order i j other, List.map_append]
    · exact regular.elim
  · cases effect with
    | quiet _ same sent received => exact complete.first j x (sent ▸ front)
    | network wire k fewer table others sent received => exact complete.first j x (sent ▸ front)
    | ignored _ k smsg own _ table others sent received =>
        exact complete.first j x (sent ▸ front)
    | handed k l different smsg peer env accepted of _ attributes others sent received =>
        exact complete.first j x (sent ▸ front)
    | sent _ k msgtag msg sends pending table sent received =>
        rw [sent] at front
        by_cases own : j = k
        case neg =>
          rw [Function.update_of_ne own] at front
          exact complete.first j x front
        subst own
        rw [Function.update_self] at front
        cases before : c.sent j with
        | cons y rest =>
            rw [before, List.cons_append, List.head?_cons] at front
            exact complete.first j x (by rw [before, List.head?_cons, front])
        | nil =>
            -- only an announcement can be the first message
            rw [before, List.nil_append, List.head?_cons] at front
            obtain rfl := Option.some.inj front
            cases event with
            | setName i name accepted =>
                cases sends
                rfl
            | multicast i tag text accepted =>
                cases sends
                exact absurd before regular.1
            | network j wire => cases sends
            | inLoop i env => cases sends
            | turn i env accepted => cases sends
  · cases effect with
    | quiet _ same sent received =>
        exact complete.known_same other (congrFun received i) (same i).table some_
    | sent _ k msgtag msg sends pending table sent received =>
        exact complete.known_same other (congrFun received i) (table i) some_
    | network wire k fewer table others sent received => exact regular.elim
    | ignored _ k smsg own front table others sent received =>
        by_cases here : i = k
        · subst here
          exact complete.known_same other (congrFun received i) table some_
        · exact complete.known_same other (congrFun received i) (others i here).table some_
    | handed k l different smsg peer env accepted of front attributes others sent received =>
        by_cases here : i = k
        case neg =>
          refine complete.known_same other ?_ (others i here).table some_
          rw [received, Function.update_of_ne here]
        subst here
        obtain ⟨sound, data, ⟨actions, processed⟩, ⟨p, found, _⟩, _⟩ := attributes
        by_cases sender : j = l
        · subst sender
          exact Option.ne_none_iff_exists'.mpr ⟨p, found⟩
        · apply SBus.processSMsg_findIpPort sound regular data processed
          apply complete.known i j other
          intro nothing
          apply some_
          have foreign : ¬ s.From j smsg := fun too =>
            sender (s.distinct j l (too.1.symm.trans of.1) (too.2.symm.trans of.2))
          rw [got] at nothing
          rw [got, received, Function.update_self, List.filter_append, List.map_append, nothing]
          simp [foreign]

/-- When every application announces its name first and the network is reliable: what was
given under the ids of an instance, followed by what is pending from it, is all it sent,
with the tags cut to sixteen bits, in the order it was sent. -/
theorem received_in_order {station : Fin n → Station} {servsock : Fin n → SocketType}
    {events : List (Event n)} (usable : s.Usable) (unshared : Unshared owns)
    (default : ∀ i, owns i (safeName (s.ip i) (s.port i)))
    (made : ∀ i, Station.init (s.ip i) (servsock i) (s.port i) (s.mcsock i) =
      some (station i))
    (regular : EachStep (Det (step s)) (Regular owns) (start station) events)
    (run : Run (Det (step s)) (start station) events c) (i : Fin n) :
    ∃ who : SBusPeer → Fin n, (∀ r ∈ c.received i, who r.peer ≠ i) ∧
      ∀ j, j ≠ i →
        ((c.received i).filter fun r => who r.peer = j).map Received.said ++
          ((c.station i).pending.filter fun smsg => s.From j smsg).map SMsg.said =
        (c.sent j).map cut := by
  have complete : Complete s (start station) := by
    refine ⟨fun i j _ => ?_, fun j x (front : none = some x) => ?_, fun i j _ some_ => ?_⟩
    · have nothing : (station i).pending = [] := (station_init usable (made i)).2.1
      rw [due, start, nothing]
      rfl
    · cases front
    · exact absurd rfl some_
  obtain ⟨_, _, _, _, ⟨order, _, _⟩, told⟩ :=
    run.refines (R := fun c net => Refined s owns c net ∧ Complete s c ∧ Told s c i)
      (Q := Net.Orderly owns) ⟨refined_start usable default made, complete,
        told_start (congrArg SBus.scontacts (station_init usable (made i)).2.2)⟩ regular
      fun c event c' net related meets call => by
        obtain ⟨refined, complete, told⟩ := related
        obtain ⟨⟨packets, net', good, refined'⟩, effect⟩ :=
          refined.step unshared usable (complete.orderly refined meets) call
        exact ⟨packets, net', good, refined', complete.step meets effect, effect.told told⟩
  obtain ⟨who, right⟩ := told.who
  refine ⟨who, fun r mem => (right r mem).1, fun j other => ?_⟩
  rw [got_eq right]
  exact order i j other

/-- Two of the three messages are received, and one is still pending. -/
theorem received_in_order_pending :
    ∃ c, Run (Det (step Net.threeSite)) (start threeStations)
        (threeSent 0 1 ++ (readsOne 2 ++ readsOne 2)) c ∧
      ∃ who : SBusPeer → Fin 3, (∀ r ∈ c.received 2, who r.peer ≠ 2) ∧
        ∀ j, j ≠ 2 →
          ((c.received 2).filter fun r => who r.peer = j).map Received.said ++
            ((c.station 2).pending.filter fun smsg => Net.threeSite.From j smsg).map SMsg.said =
          (c.sent j).map cut := by
  have taken : ((threeSent 0 1 ++ (readsOne 2 ++ readsOne 2)).foldlM (step Net.threeSite)
      (start threeStations)).isSome := by
    decide +kernel
  obtain ⟨c, fold⟩ := Option.isSome_iff_exists.mp taken
  have regular : EachStep (Det (step Net.threeSite)) (Regular Net.threeNames)
      (start threeStations) (threeSent 0 1 ++ (readsOne 2 ++ readsOne 2)) := by
    decide +kernel
  have run := run_det_iff.mpr fold
  exact ⟨c, run, received_in_order usable_threeSite Net.unshared_threeNames
    Net.threeNames_default made_threeStations regular run 2⟩

end Cluster

end LibSBus
