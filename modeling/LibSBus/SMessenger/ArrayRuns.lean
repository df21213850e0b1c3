import LibSBus.SMessenger.OnArray

/-!
Runs of calls on the messenger with the array. Each one is a run of the messenger
with a list, so what is proved of that one's table is true of the array: its used
slots are the list, in order. The other way round a run goes through on the array
as long as the first block never fills up.
-/

namespace LibSBus

open Lib

namespace ArrayMessenger

variable {a a' : ArrayMessenger} {fine : Prop}

def after (a : ArrayMessenger) (behind : Behind) : SMessenger.Call → Option ArrayMessenger
  | .recv env => (a.recv behind env).map Prod.snd
  | .connect client polled => (a.connect behind client polled).map Prod.snd
  | .others fd bytes datagrams closes =>
      some (a.setSock fd ((a.sock fd).receive bytes datagrams closes))

/-- A call, with the memory it finds behind the array. -/
def step (a : ArrayMessenger) (call : SMessenger.Call × Behind) : Option ArrayMessenger :=
  if a.list.Possible call.1 then a.after call.2 call.1 else none

/-- The descriptors the kernel hands out in the call are not 0. -/
def Positive : SMessenger.Call → Prop
  | .recv env => PositiveEnv env
  | .connect client _ => ∀ connection ∈ client, 0 < connection.1
  | .others _ _ _ _ => True

instance : DecidablePred Positive := fun call =>
  match call with
  | .recv env => inferInstanceAs (Decidable (PositiveEnv env))
  | .connect client _ => inferInstanceAs (Decidable (∀ connection ∈ client, 0 < connection.1))
  | .others _ _ _ _ => .isTrue trivial

/-- At most eight descriptors are registered, and none that is handed out is 0. -/
def Easy (m : SMessenger) (call : SMessenger.Call) : Prop :=
  m.spoll.length ≤ 8 ∧ Positive call

instance (m : SMessenger) (call : SMessenger.Call) : Decidable (Easy m call) :=
  inferInstanceAs (Decidable (_ ∧ _))

theorem Follows.snd {ρ : Type} {x : Option (ρ × ArrayMessenger)} {y : ρ × SMessenger}
    (follows : Follows fine x y) :
    (∀ b, x.map Prod.snd = some b → b.Ready ∧ b.list = y.2) ∧
      (fine → ∃ b, x.map Prod.snd = some b) := by
  constructor
  · intro b eq
    obtain ⟨⟨r, c⟩, here, rfl⟩ := Option.map_eq_some_iff.mp eq
    obtain ⟨ready, same⟩ := follows.same r c here
    exact ⟨ready, congrArg Prod.snd same⟩
  · intro ok
    obtain ⟨r, here⟩ := follows.goes ok
    exact ⟨_, congrArg (Option.map Prod.snd) here⟩

theorem Ready.after (ready : a.Ready) (behind : Behind) (call : SMessenger.Call) :
    (∀ b, a.after behind call = some b → b.Ready ∧ b.list = a.list.after call) ∧
      (Easy a.list call → ∃ b, a.after behind call = some b) := by
  cases call with
  | recv env => exact (ready.recv behind env).snd
  | connect client polled =>
      have connects := (ready.connect behind client polled).snd
      exact ⟨connects.1, fun easy => connects.2 easy.2⟩
  | others fd bytes datagrams closes =>
      constructor
      · rintro b eq
        obtain rfl := Option.some.inj eq
        exact ⟨ready.setSock _ _, rfl⟩
      · exact fun _ => ⟨_, rfl⟩

/-- One call. -/
theorem Ready.step (ready : a.Ready) (call : SMessenger.Call × Behind) :
    (∀ b, a.step call = some b → b.Ready ∧ a.list.step call.1 = some b.list) ∧
      (∀ m, a.list.step call.1 = some m → Easy a.list call.1 → ∃ b, a.step call = some b) := by
  obtain ⟨same, goes⟩ := ready.after call.2 call.1
  constructor
  · intro b taken
    obtain ⟨possible, taken⟩ := Option.ite_none_right_eq_some.mp taken
    obtain ⟨ready', listed⟩ := same b taken
    refine ⟨ready', ?_⟩
    rw [SMessenger.step, if_pos possible, listed]
  · intro m taken easy
    obtain ⟨possible, _⟩ := Option.ite_some_none_eq_some.mp taken
    obtain ⟨b, here⟩ := goes easy
    exact ⟨b, by rw [ArrayMessenger.step, if_pos possible, here]⟩

/-- What the messenger on the array does, the messenger with the list does. -/
theorem Ready.run {calls : List (SMessenger.Call × Behind)} (ready : a.Ready)
    (run : Run (Det ArrayMessenger.step) a calls a') :
    a'.Ready ∧ Run (Det SMessenger.step) a.list (calls.map Prod.fst) a'.list := by
  induction run with
  | nil => exact ⟨ready, .nil _⟩
  | cons head _ ih =>
      obtain ⟨ready', taken⟩ := (ready.step _).1 _ head
      obtain ⟨last, rest⟩ := ih ready'
      exact ⟨last, .cons taken rest⟩

/-- What the messenger with the list does in easy calls, the one on the array does. -/
theorem Ready.run_of_easy {m : SMessenger} (calls : List (SMessenger.Call × Behind))
    (ready : a.Ready) (run : Run (Det SMessenger.step) a.list (calls.map Prod.fst) m)
    (easy : EachStep (Det SMessenger.step) Easy a.list (calls.map Prod.fst)) :
    ∃ b, Run (Det ArrayMessenger.step) a calls b ∧ b.list = m := by
  induction calls generalizing a with
  | nil =>
      cases run
      exact ⟨a, .nil a, rfl⟩
  | cons call calls ih =>
      cases run with
      | cons head tail =>
          obtain ⟨b, taken⟩ := (ready.step call).2 _ head easy.1
          obtain ⟨ready', listed⟩ := (ready.step call).1 b taken
          obtain rfl := Option.some.inj (listed.symm.trans head)
          obtain ⟨c, rest, last⟩ := ih ready' tail (easy.2 _ head)
          exact ⟨c, .cons taken rest, last⟩

theorem ready_construct {ip : IP} {servsock mcsock : SocketType} {port : Port} {behind : Behind}
    {beyond : Nat → PollFd} (made : construct ip servsock port mcsock behind beyond = some a) :
    a.Ready ∧ SMessenger.construct ip servsock port mcsock = some a.list := by
  obtain ⟨server, made⟩ := Option.ite_none_left_eq_some.mp made
  obtain ⟨multicast, made⟩ := Option.ite_none_left_eq_some.mp made
  let start : ArrayMessenger :=
    { servsock, mcsock := invalidSocket, ip, port, spoll := .create beyond,
      sock := fun _ => .closed }
  have empty : start.Ready := by
    refine ⟨SPoll.create_wellFormed beyond, ?_, Nat.le_refl _⟩
    intro pair mem
    simp [start, SPoll.pairs, SPoll.getpolls, SPoll.create] at mem
  obtain ⟨⟨ret, b⟩, here, rfl⟩ := Option.map_eq_some_iff.mp made
  have opened := (empty.initMCast behind.multicast (some mcsock)).same () b
    (congrArg (Option.map fun r => ((), r.2)) here)
  refine ⟨opened.1, ?_⟩
  rw [SMessenger.construct, if_neg server, if_neg multicast]
  exact congrArg (fun r : Unit × SMessenger => some r.2) opened.2.symm

/-- From the constructor on, the messenger on the array does what the messenger with a
list of descriptors does: every run of calls that goes through is one of the other, and
`recv` returns the same messages after it. A run of the other goes through here when at
most eight descriptors are registered before each call and none that is handed out is 0. -/
theorem array_runs_as_list {ip : IP} {servsock mcsock : SocketType} {port : Port}
    {behind : Behind} {beyond : Nat → PollFd}
    (made : construct ip servsock port mcsock behind beyond = some a)
    (calls : List (SMessenger.Call × Behind)) :
    SMessenger.construct ip servsock port mcsock = some a.list ∧
    (∀ b, Run (Det ArrayMessenger.step) a calls b →
      Run (Det SMessenger.step) a.list (calls.map Prod.fst) b.list ∧
        ∀ behind env r c, b.recv behind env = some (r, c) → (r, c.list) = b.list.recv env) ∧
    (∀ m, Run (Det SMessenger.step) a.list (calls.map Prod.fst) m →
      EachStep (Det SMessenger.step) Easy a.list (calls.map Prod.fst) →
      ∃ b, Run (Det ArrayMessenger.step) a calls b ∧ b.list = m) := by
  obtain ⟨ready, listed⟩ := ready_construct made
  refine ⟨listed, ?_, fun m run easy => ready.run_of_easy calls run easy⟩
  intro b run
  obtain ⟨last, followed⟩ := ready.run run
  exact ⟨followed, fun behind env r c received => ((last.recv behind env).same r c received).2⟩

/-- A connection is accepted, another one is made, and the first one is closed by its
peer, which takes it out of the middle of the array. -/
theorem array_runs_as_list_closed :
    ∃ a b, construct 1 3 10 4 ⟨fun _ => .zero, fun _ => .zero⟩ (fun _ => .zero) = some a ∧
      Run (Det ArrayMessenger.step) a
        ([.recv ⟨.incoming (some (5, .stream [] [] true 2)), []⟩,
          .connect (some (6, .stream [] [] false 2)) true,
          .recv ⟨.idle, [[.quiet, { Look.quiet with revents := POLLIN }]]⟩].map
            fun call => (call, ⟨fun _ => .zero, fun _ => .zero⟩)) b ∧
      b.list.spoll = [4, 6] := by
  obtain ⟨a, made⟩ : ∃ a, construct 1 3 10 4 ⟨fun _ => .zero, fun _ => .zero⟩ (fun _ => .zero) =
    some a := ⟨_, rfl⟩
  obtain ⟨m₀, m, start, run, easy, left⟩ : ∃ m₀ m, SMessenger.construct 1 3 10 4 = some m₀ ∧
      Run (Det SMessenger.step) m₀
        [.recv ⟨.incoming (some (5, .stream [] [] true 2)), []⟩,
          .connect (some (6, .stream [] [] false 2)) true,
          .recv ⟨.idle, [[.quiet, { Look.quiet with revents := POLLIN }]]⟩] m ∧
      EachStep (Det SMessenger.step) Easy m₀
        [.recv ⟨.incoming (some (5, .stream [] [] true 2)), []⟩,
          .connect (some (6, .stream [] [] false 2)) true,
          .recv ⟨.idle, [[.quiet, { Look.quiet with revents := POLLIN }]]⟩] ∧
      m.spoll = [4, 6] :=
    ⟨_, _, rfl, run_det_iff.mpr rfl, by decide +kernel, by decide +kernel⟩
  obtain ⟨listed, _, goes⟩ := array_runs_as_list made
    ([.recv ⟨.incoming (some (5, .stream [] [] true 2)), []⟩,
      .connect (some (6, .stream [] [] false 2)) true,
      .recv ⟨.idle, [[.quiet, { Look.quiet with revents := POLLIN }]]⟩].map
        fun call => (call, ⟨fun _ => .zero, fun _ => .zero⟩))
  obtain rfl := Option.some.inj (start.symm.trans listed)
  obtain ⟨b, arrayRun, same⟩ := goes m run easy
  exact ⟨a, b, made, arrayRun, same ▸ left⟩

end ArrayMessenger

end LibSBus
