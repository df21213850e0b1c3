import LibSBus.Lib.Runs
import LibSBus.SMessenger

/-!
The receiving thread against the destructor. `inLoop` tests `alive` once a round,
after a receive that can last as long as its timeout, and `~SBus` clears the flag and
goes on at once: it has no way to wait for a thread that is detached.
-/

namespace LibSBus

open Lib

/-- Where the thread is in `do { recv; push_back } while(alive);` -/
inductive ThreadPoint
  | calling
  | inRecv
  | pushing (smsg : SMsg)
  | testing
  | ended
deriving DecidableEq

/-- What `~SBus` has done last. -/
inductive DestructorPoint
  | notCalled
  | aliveCleared
  | contactsDestroyed
  | messengerDestroyed
  | finished
deriving DecidableEq

/-- An instance with its thread and its destructor. -/
structure Shutdown where
  thread : ThreadPoint
  destructor : DestructorPoint
  alive : Bool
  messenger : SMessenger
  inq : List SMsg

namespace Shutdown

/-- `SBus::init` has started the thread. -/
def start (messenger : SMessenger) : Shutdown :=
  { thread := .calling, destructor := .notCalled, alive := true, messenger, inq := [] }

/-- The destructor of the messenger has been called. -/
def MessengerGone (s : Shutdown) : Prop :=
  s.destructor = .messengerDestroyed ∨ s.destructor = .finished

instance : DecidablePred MessengerGone := fun _ => inferInstanceAs (Decidable (_ ∨ _))

/-- The next step of `SBus::inLoop`. How a `recv` ends whose messenger has been destroyed
is not defined. -/
def inLoop (s : Shutdown) (env : RecvEnv) : Option Shutdown :=
  match s.thread with
  | .calling => some { s with thread := .inRecv }
  | .inRecv =>
      if s.MessengerGone then none
      else
        match s.messenger.recv env with
        | (some smsg, messenger) => some { s with thread := .pushing smsg, messenger }
        | (none, messenger) => some { s with thread := .testing, messenger }
  | .pushing smsg => some { s with thread := .testing, inq := s.inq ++ [smsg] }
  | .testing => some { s with thread := if s.alive then .calling else .ended }
  | .ended => none

/-- The next step of `SBus::~SBus`. -/
def dispose (s : Shutdown) : Option Shutdown :=
  match s.destructor with
  | .notCalled => some { s with destructor := .aliveCleared, alive := false }
  | .aliveCleared => some { s with destructor := .contactsDestroyed }
  | .contactsDestroyed => some { s with destructor := .messengerDestroyed }
  | .messengerDestroyed => some { s with destructor := .finished }
  | .finished => none

/-- Whose turn it is. -/
inductive Turn
  | thread (env : RecvEnv)
  | destructor

def step (s : Shutdown) : Turn → Option Shutdown
  | .thread env => s.inLoop env
  | .destructor => s.dispose

/-- The thread is not inside `recv` of a messenger that has been destroyed. -/
def Outside (s : Shutdown) : Prop := s.thread = .inRecv → ¬ s.MessengerGone

/-- The thread does not push to the queue of an instance that is gone. -/
def PushesInTime (s : Shutdown) : Turn → Prop
  | .thread _ => ∀ smsg, s.thread = .pushing smsg → s.destructor ≠ .finished
  | .destructor => True

/-- What is promised of a run. A call of `recv` leads into it, so that a call on a
messenger that has been destroyed is seen in the state after it. -/
def Safe (s : Shutdown) (turns : List Turn) : Prop :=
  Always (Det step) Outside s turns ∧ EachStep (Det step) PushesInTime s turns

/-- When its turn comes, the destructor finds the thread past its last `recv`, or past
its last push. -/
def FindsThreadPast (s : Shutdown) : Turn → Prop
  | .thread _ => True
  | .destructor =>
      (s.destructor = .contactsDestroyed → s.thread ≠ .calling ∧ s.thread ≠ .inRecv) ∧
      (s.destructor = .messengerDestroyed → ∀ smsg, s.thread ≠ .pushing smsg)

variable {s t : Shutdown} {turn : Turn} {turns : List Turn}

/-- What a step of the thread does, and that it leaves the destructor where it is. -/
theorem inLoop_cases {env : RecvEnv} (taken : s.inLoop env = some t) :
    (t.destructor = s.destructor ∧ t.alive = s.alive) ∧
      ((s.thread = .calling ∧ t.thread = .inRecv) ∨
        (s.thread = .inRecv ∧ ¬ s.MessengerGone ∧
          (t.thread = .testing ∨ ∃ smsg, t.thread = .pushing smsg)) ∨
        ((∃ smsg, s.thread = .pushing smsg) ∧ t.thread = .testing) ∨
        (s.thread = .testing ∧ t.thread = if s.alive then .calling else .ended)) := by
  unfold inLoop at taken
  split at taken
  case h_1 calling =>
    obtain rfl := Option.some.inj taken
    exact ⟨⟨rfl, rfl⟩, .inl ⟨calling, rfl⟩⟩
  case h_2 inside =>
    split at taken
    case isTrue gone => cases taken
    case isFalse there =>
      split at taken
      case h_1 smsg messenger received =>
        obtain rfl := Option.some.inj taken
        exact ⟨⟨rfl, rfl⟩, .inr (.inl ⟨inside, there, .inr ⟨smsg, rfl⟩⟩)⟩
      case h_2 messenger nothing =>
        obtain rfl := Option.some.inj taken
        exact ⟨⟨rfl, rfl⟩, .inr (.inl ⟨inside, there, .inl rfl⟩)⟩
  case h_3 smsg pushing =>
    obtain rfl := Option.some.inj taken
    exact ⟨⟨rfl, rfl⟩, .inr (.inr (.inl ⟨⟨smsg, pushing⟩, rfl⟩))⟩
  case h_4 testing =>
    obtain rfl := Option.some.inj taken
    exact ⟨⟨rfl, rfl⟩, .inr (.inr (.inr ⟨testing, rfl⟩))⟩
  case h_5 ended => cases taken

/-- What a step of the destructor does, and that it leaves the thread where it is. -/
theorem dispose_cases (taken : s.dispose = some t) :
    t.thread = s.thread ∧
      ((s.destructor = .notCalled ∧ t.destructor = .aliveCleared ∧ t.alive = false) ∨
        (t.alive = s.alive ∧
          ((s.destructor = .aliveCleared ∧ t.destructor = .contactsDestroyed) ∨
            (s.destructor = .contactsDestroyed ∧ t.destructor = .messengerDestroyed) ∨
            (s.destructor = .messengerDestroyed ∧ t.destructor = .finished)))) := by
  unfold dispose at taken
  split at taken
  case h_1 point =>
    obtain rfl := Option.some.inj taken
    exact ⟨rfl, .inl ⟨point, rfl, rfl⟩⟩
  case h_2 point =>
    obtain rfl := Option.some.inj taken
    exact ⟨rfl, .inr ⟨rfl, .inl ⟨point, rfl⟩⟩⟩
  case h_3 point =>
    obtain rfl := Option.some.inj taken
    exact ⟨rfl, .inr ⟨rfl, .inr (.inl ⟨point, rfl⟩)⟩⟩
  case h_4 point =>
    obtain rfl := Option.some.inj taken
    exact ⟨rfl, .inr ⟨rfl, .inr (.inr ⟨point, rfl⟩)⟩⟩
  case h_5 point => cases taken

/-- Once the messenger is gone the thread is past its last `recv`, and once the
destructor has finished past its last push. -/
structure ThreadPast (s : Shutdown) : Prop where
  recv : s.MessengerGone → s.thread ≠ .calling ∧ s.thread ≠ .inRecv
  push : s.destructor = .finished → ∀ smsg, s.thread ≠ .pushing smsg

/-- The flag is cleared before anything else, so the thread does not go back to `recv`. -/
structure Orderly (s : Shutdown) : Prop where
  alive : s.alive = true → s.destructor = .notCalled
  past : s.ThreadPast

theorem orderly_start (messenger : SMessenger) : (start messenger).Orderly where
  alive := fun _ => rfl
  past := ⟨fun gone => by simp [MessengerGone, start] at gone, fun done => by cases done⟩

theorem Orderly.inLoop (orderly : s.Orderly) {env : RecvEnv} (taken : s.inLoop env = some t) :
    t.Orderly := by
  obtain ⟨alive, recv, push⟩ := orderly
  obtain ⟨⟨destructor, flag⟩, moved⟩ := inLoop_cases taken
  have same : t.MessengerGone ↔ s.MessengerGone := by rw [MessengerGone, destructor, MessengerGone]
  refine ⟨by rwa [flag, destructor], fun gone => ?_, fun done => ?_⟩
  · have left := recv (same.mp gone)
    rcases moved with ⟨calling, _⟩ | ⟨inside, _⟩ | ⟨_, tests⟩ | ⟨_, ends⟩
    · exact absurd calling left.1
    · exact absurd inside left.2
    · simp [tests]
    · have cleared : s.alive = false := by
        by_contra set
        have early := alive (by simpa using set)
        have late := same.mp gone
        simp [MessengerGone, early] at late
      simp [ends, cleared]
  · intro smsg again
    rw [destructor] at done
    have left := recv (.inr done)
    rcases moved with ⟨calling, _⟩ | ⟨inside, _⟩ | ⟨⟨smsg, pushing⟩, _⟩ | ⟨_, ends⟩
    · exact left.1 calling
    · exact left.2 inside
    · exact push done smsg pushing
    · rw [ends] at again
      split at again <;> cases again

theorem Orderly.dispose (orderly : s.Orderly) (finds : s.FindsThreadPast .destructor)
    (taken : s.dispose = some t) : t.Orderly := by
  obtain ⟨alive, recv, push⟩ := orderly
  obtain ⟨last, lastPush⟩ := finds
  obtain ⟨thread, ⟨_, cleared, flag⟩ | ⟨flag, ⟨was, now⟩ | ⟨was, now⟩ | ⟨was, now⟩⟩⟩ :=
    dispose_cases taken
  · exact ⟨by simp [flag], by simp [MessengerGone, cleared], by simp [cleared]⟩
  all_goals
    have off : s.alive ≠ true := fun set => by simp [alive set] at was
    refine ⟨fun set => absurd (flag.symm.trans set) off, fun gone => ?_, fun done => ?_⟩
  · simp [MessengerGone, now] at gone
  · simp [now] at done
  · rw [thread]
    exact last was
  · simp [now] at done
  · rw [thread]
    exact recv (.inl was)
  · rw [thread]
    exact lastPush was

theorem Orderly.step (orderly : s.Orderly) (finds : s.FindsThreadPast turn)
    (taken : Det step s turn t) : t.Orderly := by
  cases turn with
  | thread env => exact orderly.inLoop taken
  | destructor => exact orderly.dispose finds taken

theorem Orderly.safe (orderly : s.Orderly)
    (finds : EachStep (Det Shutdown.step) FindsThreadPast s turns) : s.Safe turns := by
  have keep : ∀ s a t, Orderly s → FindsThreadPast s a → Det Shutdown.step s a t → t.Orderly :=
    fun _ _ _ orderly finds taken => orderly.step finds taken
  constructor
  · refine Always.of_invariant orderly finds keep ?_
    intro s orderly inside gone
    exact (orderly.past.recv gone).2 inside
  · apply EachStep.of_invariant orderly finds keep
    rintro s (env | _) orderly _
    · intro smsg pushing finished
      exact orderly.past.push finished smsg pushing
    · trivial

/-- What is promised of a run is promised of its first step and of the rest. -/
theorem safe_cons (safe : s.Safe (turn :: turns)) :
    s.Outside ∧ s.PushesInTime turn ∧ ∀ t, s.step turn = some t → t.Safe turns := by
  obtain ⟨always, pushes, later⟩ := safe
  refine ⟨always [] List.nil_prefix s (.nil s), pushes, fun t taken => ⟨?_, later t taken⟩⟩
  intro pre initial u run
  exact always (turn :: pre) (List.cons_prefix_cons.mpr ⟨rfl, initial⟩) u (.cons taken run)

/-- A thread that ends has its calls and its push behind it when it is too late for
them: whatever it still had to do would be done in the rest of the run. -/
theorem past_of_safe (run : Run (Det step) s turns t) (ended : t.thread = .ended)
    (safe : s.Safe turns) : s.ThreadPast := by
  induction run with
  | nil s => exact ⟨fun _ => by simp [ended], fun _ smsg => by simp [ended]⟩
  | @cons s next t turn turns head tail ih =>
      obtain ⟨outside, pushes, rest⟩ := safe_cons safe
      have later := ih ended (rest next head)
      cases turn with
      | thread env =>
          obtain ⟨⟨destructor, _⟩, moved⟩ := inLoop_cases head
          have same : next.MessengerGone ↔ s.MessengerGone := by
            rw [MessengerGone, destructor, MessengerGone]
          refine ⟨fun gone => ⟨fun calling => ?_, fun inside => outside inside gone⟩,
            fun done smsg pushing => pushes smsg pushing done⟩
          rcases moved with ⟨_, called⟩ | ⟨inside, _⟩ | ⟨⟨smsg, pushing⟩, _⟩ | ⟨testing, _⟩
          · exact (later.recv (same.mpr gone)).2 called
          · simp [inside] at calling
          · simp [pushing] at calling
          · simp [testing] at calling
      | destructor =>
          obtain ⟨thread, moved⟩ := dispose_cases head
          refine ⟨fun gone => ?_, fun done => ?_⟩
          · have still : next.MessengerGone := by
              rcases moved with ⟨was, _⟩ | ⟨_, ⟨was, _⟩ | ⟨was, _⟩ | ⟨_, now⟩⟩
              · simp [MessengerGone, was] at gone
              · simp [MessengerGone, was] at gone
              · simp [MessengerGone, was] at gone
              · exact .inr now
            rw [← thread]
            exact later.recv still
          · rcases moved with ⟨was, _⟩ | ⟨_, ⟨was, _⟩ | ⟨was, _⟩ | ⟨was, _⟩⟩
            all_goals simp [was] at done

/-- The step of the destructor that is safe in the end has found the thread past. -/
theorem findsThreadPast_of_safe (run : Run (Det step) s turns t) (ended : t.thread = .ended)
    (safe : s.Safe turns) : EachStep (Det step) FindsThreadPast s turns := by
  induction run with
  | nil s => trivial
  | @cons s next t turn turns head tail ih =>
      obtain ⟨_, _, rest⟩ := safe_cons safe
      have past := past_of_safe tail ended (rest next head)
      refine ⟨?_, fun other taken => ?_⟩
      · cases turn with
        | thread env => trivial
        | destructor =>
            constructor
            · intro here
              have destroyed : s.dispose = some { s with destructor := .messengerDestroyed } := by
                rw [dispose, here]
              obtain rfl := Option.some.inj (destroyed.symm.trans head)
              exact past.recv (.inl rfl)
            · intro here
              have finished : s.dispose = some { s with destructor := .finished } := by
                rw [dispose, here]
              obtain rfl := Option.some.inj (finished.symm.trans head)
              exact past.push rfl
      · obtain rfl : next = other := Option.some.inj (head.symm.trans taken)
        exact ih ended (rest next head)

/-- In every run in which the destructor finds the thread past its last `recv` and its
last push when it comes to the messenger and to its end, nothing happens too late; and
a run at whose end the thread has ended is safe only if it is one of these. -/
theorem shutdown_safe_iff (messenger : SMessenger) (turns : List Turn) :
    (EachStep (Det step) FindsThreadPast (start messenger) turns →
      (start messenger).Safe turns) ∧
    ∀ t, Run (Det step) (start messenger) turns t → t.thread = .ended →
      (start messenger).Safe turns →
        EachStep (Det step) FindsThreadPast (start messenger) turns :=
  ⟨(orderly_start messenger).safe, fun _ run ended safe =>
    findsThreadPast_of_safe run ended safe⟩

/-- The thread is in the middle of a receive when the messenger is destroyed. -/
theorem destroyed_during_recv :
    ¬ ∀ (messenger : SMessenger) (turns : List Turn), (start messenger).Safe turns := by
  intro always
  let messenger : SMessenger :=
    { servsock := 3, mcsock := 4, ip := 1, port := 10, spoll := [4], sock := fun _ => .closed }
  have run := run_det_iff.mpr
    (rfl : [Turn.thread ⟨.idle, []⟩, .destructor, .destructor, .destructor].foldlM step
      (start messenger) = some _)
  have outside := (always messenger _).1 _ (List.prefix_refl _) _ run
  exact outside rfl (.inl rfl)

end Shutdown

end LibSBus
