import LibSBus.SBus.Inbox
import LibSBus.SMessenger.Lengths

/-!
One call of `SBus::recv` while nothing arrives, against `getPending`. The call
takes messages off the queue until `processSMsg` returns an id; with the queue
empty it sleeps for ever. Which messages give an id is known, so the call returns
exactly if one of them is queued.
-/

namespace LibSBus

open Lib SContacts

namespace SBus

/-- `SBus::getPending` -/
def getPending (inq : List SMsg) : Int := toInt inq.length

/-- `SBus::recv`, with what the processing of each message finds. No message means
that it waits on the empty queue. -/
def recv (b : SBus) (envs : Nat → StepEnv) :
    List SMsg → Option (Option Received × SBus × List SMsg)
  | [] => some (none, b, [])
  | smsg :: rest => do
      let (peer, b, _) ← b.processSMsg (envs 0) smsg
      if peer ≥ 0 then some (some ⟨smsg, smsg.msgtag, peer, smsg.msg⟩, b, rest)
      else b.recv (fun i => envs (i + 1)) rest

variable {b b' : SBus} {env : StepEnv} {smsg : SMsg} {p : Ptr} {id : SBusPeer}
  {actions : List Action}

/-- The sender of a message is one of the contacts, or gets the next id. -/
theorem sender_counts {e : CallEnv} (call : b.sender e smsg = some (p, b')) :
    b'.scontacts.lastPeerId ≤ b.scontacts.lastPeerId + 1 := by
  rcases sender_cases call with ⟨_, rfl⟩ | ⟨_, _, rfl⟩ | ⟨_, _, _, rfl⟩ |
    ⟨_, _, _, _, _, rfl⟩
  · omega
  · split
    case isTrue own => exact (Int.lt_add_one_iff.mpr (Int.le_refl _)).le
    case isFalse shared => omega
  · omega
  · exact Int.le_of_eq bump_lastPeerId

/-- While there are ids, each message has a sender. -/
theorem sender_isSome (e : CallEnv) (smsg : SMsg) (more : b.scontacts.lastPeerId ≠ intMax) :
    (b.sender e smsg).isSome := by
  unfold sender
  split
  case h_1 q held => rfl
  case h_2 unheld =>
    split
    case h_1 missing =>
      rw [Option.isSome_map]
      cases named : b.scontacts.findName b.name with
      | some q => simp [add, missing, named]
      | none => rw [add_of_new missing named more, Option.isSome_some]
    case h_2 q found => split <;> rfl

/-- While there are ids, processing a message has a result, and uses up one id at
most. -/
theorem processSMsg_result (sound : IndexesSound b.scontacts b.scontacts.heap.live)
    (env : StepEnv) (smsg : SMsg) (more : b.scontacts.lastPeerId ≠ intMax) :
    ∃ id b' actions, b.processSMsg env smsg = some (id, b', actions) ∧
      b'.scontacts.lastPeerId ≤ b.scontacts.lastPeerId + 1 := by
  by_cases lost : smsg.error = true
  · refine ⟨-1, _, [], if_pos lost, ?_⟩
    unfold processError
    split <;> exact (Int.lt_add_one_iff.mpr (Int.le_refl _)).le
  by_cases own : b.isSelf smsg
  · refine ⟨-1, b, [], ?_, by omega⟩
    rw [processSMsg, if_neg lost, if_pos own]
  · obtain ⟨⟨p, d⟩, found⟩ := Option.isSome_iff_exists.mp (sender_isSome env.lookup smsg more)
    obtain ⟨⟨id, b', actions⟩, handled⟩ : ∃ result,
        (d.touch env.lookup.now p).handle env smsg p (d.scontacts.info p).peer = result := ⟨_, rfl⟩
    have call : b.processSMsg env smsg = some (id, b', actions) := by
      rw [processSMsg, if_neg lost, if_neg own, found, ← handled]
      rfl
    refine ⟨id, b', actions, call, ?_⟩
    have counted := sender_counts found
    obtain ⟨changes, _⟩ := sender_changes (fun _ _ _ => True) sound trivial
      (fun _ => trivial) found
    have sound' := sound.changes (changes.tail (.stamp _ env.lookup.now p))
    exact handle_keeps (I := fun c => c.lastPeerId ≤ b.scontacts.lastPeerId + 1)
      (fun _ _ _ kept => kept) (fun _ _ _ _ _ _ _ kept => kept) sound' rfl handled counted

end SBus

namespace Inbox

variable {s t : Inbox} {serverIP : IP} {serverPort : Port}

/-- A call of `recv` is a number of turns, after which the queue and what was
received are as it says. -/
theorem recv_run (s : Inbox) {envs : Nat → StepEnv} {out : Option Received} {bus : SBus}
    {rest : List SMsg} (call : s.bus.recv envs s.inq = some (out, bus, rest)) :
    ∃ turns, Run (Det step) s turns
      { s with bus, inq := rest, received := s.received ++ out.toList } := by
  obtain ⟨b, inq, received⟩ := s
  induction inq generalizing b envs with
  | nil =>
      obtain ⟨rfl, same⟩ := Prod.mk.inj (Option.some.inj call)
      obtain ⟨rfl, rfl⟩ := Prod.mk.inj same
      refine ⟨[], ?_⟩
      simpa using Run.nil _
  | cons smsg inq ih =>
      obtain ⟨⟨peer, b', actions⟩, processed, call⟩ := Option.bind_eq_some_iff.mp call
      have turn : step ⟨b, smsg :: inq, received⟩ (.turn (envs 0)) =
          if peer ≥ 0 then
            some ⟨b', inq, received ++ [⟨smsg, smsg.msgtag, peer, smsg.msg⟩]⟩
          else some ⟨b', inq, received⟩ := by
        simp [step, processed]
      dsimp only at call
      split at call
      case isTrue positive =>
        obtain ⟨rfl, same⟩ := Prod.mk.inj (Option.some.inj call)
        obtain ⟨rfl, rfl⟩ := Prod.mk.inj same
        rw [if_pos positive] at turn
        exact ⟨[.turn (envs 0)], .cons turn (.nil _)⟩
      case isFalse negative =>
        rw [if_neg negative] at turn
        obtain ⟨turns, run⟩ := ih b' call
        exact ⟨.turn (envs 0) :: turns, .cons turn run⟩

/-- The ids that are left are enough for every message in the queue. -/
def IdsLeft (s : Inbox) : Prop := s.bus.scontacts.lastPeerId + s.inq.length ≤ intMax

instance (s : Inbox) : Decidable s.IdsLeft := inferInstanceAs (Decidable (_ ≤ _))

/-- The next call of `recv` returns a message if there are pending ones. -/
def PendingReturns (s : Inbox) (envs : Nat → StepEnv) : Prop :=
  0 < SBus.getPending s.inq →
    ∃ r bus rest, s.bus.recv envs s.inq = some (some r, bus, rest)

/-- What the calls in the examples find. -/
def quietStep : StepEnv := ⟨⟨10, 0, []⟩, ⟨10, 1, []⟩, ⟨⟨10, 2, []⟩, -1, 0⟩⟩

/-- The echo of a message of its own is pending, and `recv` drops it and waits. -/
theorem own_message_pending :
    ¬ ∀ serverIP serverPort mcsock events s envs,
      Run (Det Inbox.step) (start serverIP serverPort mcsock) events s → s.IdsLeft →
      s.PendingReturns envs := by
  intro always
  have run := run_det_iff.mpr (rfl : [Event.push ⟨5, 1, 10, 4, [65], false⟩].foldlM Inbox.step
    (start 1 10 4) = some _)
  obtain ⟨r, bus, rest, call⟩ := always 1 10 4 _ _ (fun _ => quietStep) run (by decide) (by decide)
  have waits : (start 1 10 4).bus.recv (fun _ => quietStep) [⟨5, 1, 10, 4, [65], false⟩] =
      some (none, (start 1 10 4).bus, []) := rfl
  cases waits.symm.trans call

/-- A call of `recv` has an outcome, and returns a message exactly if a deliverable
one is queued. -/
theorem recv_returns_iff (envs : Nat → StepEnv) (orderly : s.Orderly serverIP serverPort)
    (ids : s.IdsLeft) :
    ∃ out bus rest, s.bus.recv envs s.inq = some (out, bus, rest) ∧
      (out.isSome ↔ ∃ smsg ∈ s.inq, smsg.Deliverable serverIP serverPort) := by
  obtain ⟨b, inq, received⟩ := s
  obtain ⟨placed, sound, counted⟩ := orderly
  unfold IdsLeft at ids
  dsimp only at placed sound counted ids ⊢
  induction inq generalizing b envs with
  | nil => exact ⟨none, b, [], rfl, by simp⟩
  | cons smsg inq ih =>
      rw [List.length_cons] at ids
      obtain ⟨peer, b', actions, processed, used⟩ :=
        SBus.processSMsg_result sound (envs 0) smsg (by omega)
      have iff := SBus.processSMsg_nonneg_iff sound counted processed
      rw [placed.1, placed.2] at iff
      rw [SBus.recv, processed]
      dsimp only [Option.bind_some, bind]
      by_cases positive : peer ≥ 0
      · rw [if_pos positive]
        refine ⟨_, _, _, rfl, iff_of_true rfl ?_⟩
        exact ⟨smsg, List.mem_cons_self, iff.mp positive⟩
      · obtain ⟨changes, same⟩ := SBus.processSMsg_any_changes sound processed
        have placed' : b'.serverIP = serverIP ∧ b'.serverPort = serverPort := by
          rw [same]
          exact placed
        rw [if_neg positive]
        obtain ⟨out, bus, rest, call, returns⟩ := ih (fun i => envs (i + 1)) b' (by omega)
          placed' (sound.changes changes) (counted.changes sound changes)
        refine ⟨out, bus, rest, call, returns.trans ?_⟩
        have kept : ¬ smsg.Deliverable serverIP serverPort := mt iff.mpr positive
        simp [kept]

/-- In every state an instance comes to, with ids left, the next call returns a
message as `getPending` promises exactly if the queue is empty or holds a message
that is for the application. -/
theorem pending_returns_iff {mcsock : SocketType} {events : List Event} (envs : Nat → StepEnv)
    (run : Run (Det Inbox.step) (start serverIP serverPort mcsock) events s)
    (ids : s.IdsLeft) :
    s.PendingReturns envs ↔
      s.inq = [] ∨ ∃ smsg ∈ s.inq, smsg.Deliverable serverIP serverPort := by
  have orderly := run.invariant (orderly_start mcsock) fun _ _ _ orderly taken =>
    Orderly.step orderly taken
  obtain ⟨out, bus, rest, call, returns⟩ := recv_returns_iff envs orderly ids
  have pending : SBus.getPending s.inq = s.inq.length := by
    have some_ids := orderly.counted.counted
    unfold IdsLeft intMax at ids
    rw [SBus.getPending, toInt_eq, Nat.mod_eq_of_lt (by omega), if_pos (by omega)]
  rw [← returns, PendingReturns, pending, call]
  cases s.inq with
  | nil => simp
  | cons smsg inq => simp [Option.isSome_iff_exists]

/-- A user message behind a search for a name. -/
theorem pending_returns_iff_search_first :
    ∃ s, Run (Det Inbox.step) (start 1 10 4)
        [.push ⟨sbusFind, 2, 20, 4, [97], false⟩, .push ⟨5, 2, 20, 4, [65], false⟩] s ∧
      s.PendingReturns fun _ => quietStep := by
  have run := run_det_iff.mpr (rfl : [Event.push ⟨sbusFind, 2, 20, 4, [97], false⟩,
    .push ⟨5, 2, 20, 4, [65], false⟩].foldlM Inbox.step (start 1 10 4) = some _)
  refine ⟨_, run, (pending_returns_iff (fun _ => quietStep) run (by decide)).mpr (.inr ?_)⟩
  exact ⟨⟨5, 2, 20, 4, [65], false⟩, List.mem_append_right _ List.mem_cons_self, by decide⟩

end Inbox

end LibSBus
