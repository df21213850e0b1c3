import LibSBus.SBus.Cluster

/-!
What the applications of the cluster are given. Each message that is sent to all gets
to each of the others at most once, from the datagram on the wire to what `recv`
returns, and is given under an id that stands for its sender. If the network loses
nothing and keeps the order, nothing is missing and nothing is overtaken.
-/

namespace LibSBus

open Lib SContacts

/-- The tag and the bytes, as they arrive. -/
def SMsg.said (smsg : SMsg) : Int × CString := (smsg.msgtag, smsg.msg)

/-- The tag and the bytes, as `recv` returns them. -/
def Received.said (r : Received) : Int × CString := (r.msgtag, r.msg)

namespace Cluster

variable {n : Nat} {s : Site n} {owns : Fin n → CString → Prop} {c c' : Cluster n} {i j : Fin n}
  {event : Event n} {A : Int → IP × Port}

/-- What instance `i` has got from the address of instance `j`, and what is still pending
there. -/
def got (s : Site n) (c : Cluster n) (i j : Fin n) : List (Int × CString) :=
  ((c.received i).filter fun r => s.From j r.smsg).map Received.said

def due (s : Site n) (c : Cluster n) (i j : Fin n) : List (Int × CString) :=
  ((c.station i).pending.filter fun smsg => s.From j smsg).map SMsg.said

theorem not_from (other : j ≠ i) {smsg : SMsg} (own : s.From i smsg) : ¬ s.From j smsg :=
  fun too => other (s.distinct j i (too.1.symm.trans own.1) (too.2.symm.trans own.2))

theorem from_shout (s : Site n) (k i j : Fin n) (msgtag : Int) (msg : CString) :
    s.From j (s.shout k i msgtag msg) ↔ k = j := by
  constructor
  · exact fun of => s.distinct k j ((s.oneInterface k).symm.trans of.1) of.2
  · rintro rfl
    exact ⟨s.oneInterface k, rfl⟩

/-- Nothing changed at an instance that received nothing. -/
theorem account_same (same : (c.station i).Same (c'.station i))
    (received : c'.received i = c.received i) :
    got s c' i j ++ due s c' i j = got s c i j ++ due s c i j := by
  rw [got, due, received, same.pending]
  rfl

/-- A step adds to what was got and is due what it adds to what was sent, with the tag
cut; only the network takes something away. -/
theorem Effect.accounts (effect : Effect s c c' event) (other : j ≠ i) :
    (∃ more, got s c' i j ++ due s c' i j = got s c i j ++ due s c i j ++ more.map cut ∧
      c'.sent j = c.sent j ++ more) ∨
    ((∃ k wire, event = .network k wire) ∧
      (got s c' i j ++ due s c' i j).Subperm (got s c i j ++ due s c i j) ∧
      c'.sent j = c.sent j) := by
  cases effect with
  | quiet _ same sent received =>
      refine .inl ⟨[], ?_, ?_⟩
      · rw [account_same (same i) (congrFun received i), List.map_nil, List.append_nil]
      · rw [sent, List.append_nil]
  | sent _ k msgtag msg sends pending table sent received =>
      have due_eq : due s c' i j =
          due s c i j ++ (if k = j then [(msgtag, msg)] else []).map cut := by
        rw [due, pending, List.filter_append, List.map_append]
        by_cases own : k = j
        · have mine := (from_shout s k i j msgtag msg).mpr own
          rw [if_pos own, List.filter_cons_of_pos (by simpa using mine)]
          rfl
        · simp [from_shout, own, due]
      refine .inl ⟨if k = j then [(msgtag, msg)] else [], ?_, ?_⟩
      · rw [due_eq, got, received, ← List.append_assoc]
        rfl
      · rw [sent]
        by_cases own : k = j
        · subst own
          rw [Function.update_self, if_pos rfl]
        · rw [Function.update_of_ne (Ne.symm own), if_neg own, List.append_nil]
  | network wire k fewer table others sent received =>
      by_cases here : i = k
      · subst here
        refine .inr ⟨⟨i, wire, rfl⟩, ?_, congrFun sent j⟩
        obtain ⟨left, perm, sub⟩ := fewer
        rw [got, received]
        apply (List.subperm_append_left _).mpr
        exact ⟨_, (perm.filter _).map _, (sub.filter _).map _⟩
      · refine .inl ⟨[], ?_, ?_⟩
        · rw [account_same (others i here) (congrFun received i), List.map_nil, List.append_nil]
        · rw [sent, List.append_nil]
  | ignored _ k smsg own front table others sent received =>
      refine .inl ⟨[], ?_, ?_⟩
      · rw [List.map_nil, List.append_nil]
        by_cases here : i = k
        · subst here
          have foreign := not_from other own
          rw [got, due, got, due, received, front, List.filter_cons_of_neg (by simpa using foreign)]
        · exact account_same (others i here) (congrFun received i)
      · rw [sent, List.append_nil]
  | handed k l different smsg peer env accepted of front attributes others sent received =>
      refine .inl ⟨[], ?_, ?_⟩
      · rw [List.map_nil, List.append_nil]
        by_cases here : i = k
        · subst here
          rw [got, due, got, due, received, Function.update_self, front, List.filter_append,
            List.map_append]
          by_cases mine : s.From j smsg
          · simp [mine, Received.said, SMsg.said]
          · simp [mine]
        · refine account_same (others i here) ?_
          rw [received, Function.update_of_ne here]
      · rw [sent, List.append_nil]

/-- The ids under which instance `i` was given messages stand for their senders, for good. -/
def Told (s : Site n) (c : Cluster n) (i : Fin n) : Prop :=
  ∃ A, Assigned A (c.station i).bus.scontacts ∧
    ∀ r ∈ c.received i, (r.peer : Int) ≤ (c.station i).bus.scontacts.lastPeerId ∧
      ∃ j, j ≠ i ∧ s.From j r.smsg ∧ A r.peer = (s.ip j, s.port j)

theorem told_start {station : Fin n → Station}
    (nobody : ((start station).station i).bus.scontacts = .empty) : Told s (start station) i := by
  refine ⟨fun _ => (0, 0), ?_, fun r (mem : r ∈ []) => by cases mem⟩
  rw [nobody]
  exact assigned_empty

theorem Told.same (told : Told s c i)
    (table : (c'.station i).bus.scontacts = (c.station i).bus.scontacts)
    (received : c'.received i = c.received i) : Told s c' i := by
  rw [Told, table, received]
  exact told

theorem Effect.told (effect : Effect s c c' event) (told : Told s c i) : Told s c' i := by
  cases effect with
  | quiet _ same sent received => exact told.same (same i).table (congrFun received i)
  | sent _ k msgtag msg sends pending table sent received =>
      exact told.same (table i) (congrFun received i)
  | network wire k fewer table others sent received =>
      by_cases here : i = k
      · subst here
        exact told.same table (congrFun received i)
      · exact told.same (others i here).table (congrFun received i)
  | ignored _ k smsg own front table others sent received =>
      by_cases here : i = k
      · subst here
        exact told.same table (congrFun received i)
      · exact told.same (others i here).table (congrFun received i)
  | handed k j different smsg peer env accepted of front attributes others sent received =>
      by_cases here : i = k
      case neg =>
        refine told.same (others i here).table ?_
        rw [received, Function.update_of_ne here]
      subst here
      obtain ⟨A, assigned, given⟩ := told
      obtain ⟨sound, _, ⟨actions, processed⟩, ⟨p, found, id⟩, issued⟩ := attributes
      obtain ⟨changes, _⟩ := SBus.processSMsg_any_changes sound processed
      obtain ⟨grew, A', assigned', kept⟩ := assigned.changes changes
      refine ⟨A', assigned', ?_⟩
      rw [received, Function.update_self]
      intro r mem
      rcases List.mem_append.mp mem with old | new
      · obtain ⟨bound, k, other, sender, belongs⟩ := given r old
        exact ⟨bound.trans grew, k, other, sender, (kept _ bound).trans belongs⟩
      · obtain rfl := List.mem_singleton.mp new
        refine ⟨issued, j, different, of, ?_⟩
        obtain ⟨ip, port⟩ := findIpPort_address assigned'.sound found
        rw [← id, assigned'.address p, ip, port]

/-- The instance an id stands for. -/
theorem Told.who (told : Told s c i) :
    ∃ who : SBusPeer → Fin n, ∀ r ∈ c.received i, who r.peer ≠ i ∧ s.From (who r.peer) r.smsg := by
  obtain ⟨A, _, given⟩ := told
  refine ⟨fun peer => (s.at (A peer).1 (A peer).2).getD i, fun r mem => ?_⟩
  obtain ⟨_, j, other, sender, belongs⟩ := given r mem
  have is : s.at (A r.peer).1 (A r.peer).2 = some j := by
    rw [belongs]
    exact s.at_eq_some_iff.mpr ⟨rfl, rfl⟩
  simp only [is, Option.getD_some]
  exact ⟨other, sender⟩

/-- What was got from an instance is what was given under its ids. -/
theorem got_eq {who : SBusPeer → Fin n}
    (right : ∀ r ∈ c.received i, who r.peer ≠ i ∧ s.From (who r.peer) r.smsg) :
    ((c.received i).filter fun r => who r.peer = j).map Received.said = got s c i j := by
  rw [got]
  congr 1
  apply List.filter_congr
  intro r mem
  have sender := (right r mem).2
  refine decide_eq_decide.mpr ⟨?_, fun too => ?_⟩
  · rintro rfl
    exact sender
  · exact s.distinct _ j (sender.1.symm.trans too.1) (sender.2.symm.trans too.2)

/-- What every effect keeps holds after every run. -/
theorem invariant_of_run {I : Cluster n → Prop}
    {station : Fin n → Station} {servsock : Fin n → SocketType}
    {events : List (Event n)} (usable : s.Usable) (unshared : Unshared owns)
    (default : ∀ i, owns i (safeName (s.ip i) (s.port i)))
    (made : ∀ i, Station.init (s.ip i) (servsock i) (s.port i) (s.mcsock i) =
      some (station i))
    (orderly : EachStep (Det (step s)) (Orderly s owns) (start station) events)
    (run : Run (Det (step s)) (start station) events c) (first : I (start station))
    (keep : ∀ c c' event, I c → Effect s c c' event → I c') : I c := by
  obtain ⟨_, net, _, _, last⟩ :=
    run.refines (R := fun c net => Refined s owns c net ∧ I c)
      ⟨refined_start usable default made, first⟩ orderly
      fun c event c' net related orderly call => by
        obtain ⟨⟨packets, net', good, refined⟩, effect⟩ :=
          related.1.step unshared usable orderly call
        exact ⟨packets, net', good, refined, keep c c' event related.2 effect⟩
  exact last

section Runs

variable {station : Fin n → Station} {servsock : Fin n → SocketType} {events : List (Event n)}
  (usable : s.Usable) (unshared : Unshared owns)
  (default : ∀ i, owns i (safeName (s.ip i) (s.port i)))
  (made : ∀ i, Station.init (s.ip i) (servsock i) (s.port i) (s.mcsock i) = some (station i))
  (orderly : EachStep (Det (step s)) (Orderly s owns) (start station) events)
  (run : Run (Det (step s)) (start station) events c)

include usable unshared default made orderly run

theorem told_of_run (i : Fin n) : Told s c i := by
  refine invariant_of_run (I := fun c => Told s c i) usable unshared default made orderly run ?_
    fun _ _ _ told effect => effect.told told
  exact told_start (congrArg SBus.scontacts (station_init usable (made i)).2.2)

/-- Whatever the network loses and overtakes: there is an instance for each id under
which messages are given, and what was given under its ids are messages it sent, with their
tags cut to sixteen bits, each of them once at most. -/
theorem received_once (i : Fin n) :
    ∃ who : SBusPeer → Fin n, (∀ r ∈ c.received i, who r.peer ≠ i) ∧
      ∀ j, j ≠ i →
        (((c.received i).filter fun r => who r.peer = j).map Received.said).Subperm
          ((c.sent j).map cut) := by
  obtain ⟨who, right⟩ := (told_of_run usable unshared default made orderly run i).who
  refine ⟨who, fun r mem => (right r mem).1, fun j other => ?_⟩
  rw [got_eq right]
  have accounts : (got s c i j ++ due s c i j).Subperm ((c.sent j).map cut) := by
    refine invariant_of_run
      (I := fun c => (got s c i j ++ due s c i j).Subperm ((c.sent j).map cut))
      usable unshared default made orderly run ?_ ?_
    · have nothing : (station i).pending = [] := (station_init usable (made i)).2.1
      rw [due, start, nothing]
      exact List.nil_subperm
    · intro c c' event within effect
      rcases effect.accounts other with ⟨more, same, sent⟩ | ⟨_, fewer, sent⟩
      · rw [same, sent, List.map_append]
        exact (List.subperm_append_right (more.map cut)).mpr within
      · rw [sent]
        exact fewer.trans within
  exact (List.sublist_append_left _ _).subperm.trans accounts

omit usable unshared default made orderly run in
/-- The announcements of two instances, of which the second overtook the first, under
different ids. -/
theorem received_once_overtaken :
    ∃ c, Run (Det (step Net.threeSite)) (start threeStations) (overtaken 0 1 2) c ∧
      (c.received 2).map Received.said = [(-1, [98]), (-1, [97])] ∧
      ∃ who : SBusPeer → Fin 3, (∀ r ∈ c.received 2, who r.peer ≠ 2) ∧
        ∀ j, j ≠ 2 →
          (((c.received 2).filter fun r => who r.peer = j).map Received.said).Subperm
            ((c.sent j).map cut) := by
  obtain ⟨c, run, received⟩ := run_overtaken
  exact ⟨c, run, received, received_once usable_threeSite Net.unshared_threeNames
    Net.threeNames_default made_threeStations orderly_overtaken run 2⟩

end Runs

end Cluster

end LibSBus
