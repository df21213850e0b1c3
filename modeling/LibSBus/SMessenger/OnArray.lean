import LibSBus.SMessenger.Registered
import LibSBus.SPoll.Inside

/-!
`SMessenger` on the array of `SPoll`. The loop of `recv` walks the slots by their
number, reads the descriptor and what `poll` wrote beside it, and registers and
removes descriptors in the array. That it does what the messenger with a list of
descriptors does is proved here for one call.

An assertion that fails ends the process, and an access past the block has no
defined behaviour. Such a call has no result here. That a call has one is proved
where at most eight descriptors are registered and the kernel hands out no
descriptor 0.
-/

namespace LibSBus

open Lib

/-- What `poll` wrote has `POLLHUP`, `POLLERR` or `POLLNVAL`. -/
def PollFd.Problem (slot : PollFd) : Prop :=
  slot.revents &&& POLLHUP ≠ 0 ∨ slot.revents &&& POLLERR ≠ 0 ∨ slot.revents &&& POLLNVAL ≠ 0

instance (slot : PollFd) : Decidable slot.Problem := inferInstanceAs (Decidable (_ ∨ _))

/-- The events every descriptor is registered for. -/
def watched : BitVec 16 := POLLIN ||| POLLHUP ||| POLLERR ||| POLLNVAL

/-- `poll` reports nothing for the entry. -/
def Look.quiet : Look :=
  { revents := 0, arrivals := fun _ => 0, late := 0, later := 0, reopened := none }

/-- What `realloc` would put behind the array, if a call makes it grow: when a
connection is registered, and when the multicast socket is. -/
structure Behind where
  connection : Nat → PollFd
  multicast : Nat → PollFd

structure ArrayMessenger where
  servsock : SocketType
  mcsock : SocketType
  ip : IP
  port : Port
  spoll : SPoll
  sock : SocketType → Sock

namespace ArrayMessenger

def setSock (a : ArrayMessenger) (fd : SocketType) (s : Sock) : ArrayMessenger :=
  { a with sock := Function.update a.sock fd s }

def arrive (a : ArrayMessenger) (arrivals : SocketType → Nat) : ArrayMessenger :=
  { a with sock := fun fd => (a.sock fd).arrive (arrivals fd) }

/-- `spoll.add(fd, POLLIN | POLLHUP | POLLERR | POLLNVAL)` -/
def addToPoll (a : ArrayMessenger) (moved : Nat → PollFd) (fd : SocketType) :
    Option (Int × ArrayMessenger) :=
  (a.spoll.inside (.add moved fd watched)).map fun (ret, spoll) => (ret, { a with spoll })

def initServer (a : ArrayMessenger) : Option SocketType → Int × ArrayMessenger
  | none => (-1, { a with servsock := invalidSocket })
  | some fd => (0, { a with servsock := fd })

def initMCast (a : ArrayMessenger) (moved : Nat → PollFd) :
    Option SocketType → Option (Int × ArrayMessenger)
  | none => some (-1, { a with mcsock := invalidSocket })
  | some fd => { a.setSock fd (.dgram [] []) with mcsock := fd }.addToPoll moved fd

/-- `acceptConn` does not look at what `spoll.add` returns. -/
def listenConn (a : ArrayMessenger) (moved : Nat → PollFd) :
    Listen → Option (Int × ArrayMessenger)
  | .idle => some (0, a)
  | .broken reopened => some (a.initServer reopened)
  | .incoming none => some (-1, a)
  | .incoming (some (fd, s)) => ((a.setSock fd s).addToPoll moved fd).map fun (_, a) => (0, a)

/-- It does not look at what `initMCast` returns. -/
def socketErrorHandling (a : ArrayMessenger) (moved : Nat → PollFd) (fd : SocketType)
    (reopened : Option SocketType) : Option ArrayMessenger :=
  if fd = a.mcsock then ((a.setSock fd .closed).initMCast moved reopened).map Prod.snd
  else (a.spoll.inside (.remove fd)).map fun (_, spoll) => { a.setSock fd .closed with spoll }

/-- The body of the loop of `recv`, at slot `i`. -/
def visit (a : ArrayMessenger) (moved : Nat → PollFd) (i : Nat) (look : Look) :
    Option (Option SMsg × ArrayMessenger) :=
  let a := a.arrive look.arrivals
  let slot := a.spoll.fds i
  let fd := slot.fd
  if fd ≠ 0 ∧ slot.revents ≠ 0 then
    if slot.Problem then
      (a.socketErrorHandling moved fd look.reopened).map fun a =>
        (some (SMsg.ofError errcodePeerDisconnected 0 0 fd), a)
    else if slot.revents &&& POLLIN ≠ 0 then
      match nextMsg maxDatalen (a.sock fd) look.late look.later with
      | (.error, s) =>
          ((a.setSock fd s).socketErrorHandling moved fd look.reopened).map fun a =>
            (some (SMsg.ofError errcodePeerDisconnected 0 0 fd), a)
      | (.pending, s) => some (none, a.setSock fd s)
      | (.message msgtag ip port msg, s) =>
          if fd > 0 then
            some (some { msgtag, ip, port, socket := fd, msg, error := false }, a.setSock fd s)
          else some (none, a.setSock fd s)
    else some (none, a)
  else some (none, a)

/-- The `for` of `recv`: `n` slots from `i` on. -/
def pass (a : ArrayMessenger) (moved : Nat → PollFd) (looks : List Look) :
    Nat → Nat → Option (Option SMsg × ArrayMessenger)
  | 0, _ => some (none, a)
  | n + 1, i =>
      match a.visit moved i (looks.getD i .quiet) with
      | none => none
      | some (some msg, a) => some (some msg, a)
      | some (none, a) => a.pass moved looks n (i + 1)

/-- The `while` of `recv`. -/
def polls (a : ArrayMessenger) (moved : Nat → PollFd) :
    List (List Look) → Option (Option SMsg × ArrayMessenger)
  | [] => some (none, a)
  | looks :: more =>
      match a.spoll.doPoll fun k => (looks.getD k .quiet).revents with
      | none => none
      | some spoll =>
          match { a with spoll }.pass moved looks spoll.size.toNat 0 with
          | none => none
          | some (some msg, a) => some (some msg, a)
          | some (none, a) => a.polls moved more

def recv (a : ArrayMessenger) (behind : Behind) (env : RecvEnv) :
    Option (Option SMsg × ArrayMessenger) :=
  match a.listenConn behind.connection env.listen with
  | none => none
  | some (res, a) => if res < 0 then some (none, a) else a.polls behind.multicast env.passes

/-- The constructor, where `beyond` is the memory after the new array. -/
def construct (ip : IP) (servsock : SocketType) (port : Port) (mcsock : SocketType)
    (behind : Behind) (beyond : Nat → PollFd) : Option ArrayMessenger :=
  if servsock < 0 then none
  else if mcsock < 0 then none
  else
    (initMCast { servsock, mcsock := invalidSocket, ip, port, spoll := .create beyond
                 sock := fun _ => .closed } behind.multicast (some mcsock)).map Prod.snd

def connect (a : ArrayMessenger) (behind : Behind) (client : Option (SocketType × Sock))
    (polled : Bool) : Option (SocketType × ArrayMessenger) :=
  match client with
  | none => some (-1, a)
  | some (fd, s) =>
      let a := a.setSock fd s
      if polled then
        (a.addToPoll behind.connection fd).map fun (ret, a) =>
          if ret < 0 then (-1, a) else (fd, a)
      else some (-1, a)

/-- The messenger whose table is the list the array stands for. -/
def list (a : ArrayMessenger) : SMessenger :=
  { servsock := a.servsock, mcsock := a.mcsock, ip := a.ip, port := a.port
    spoll := a.spoll.pairs.map Prod.fst, sock := a.sock }

variable {a a' : ArrayMessenger} {moved : Nat → PollFd} {fd : SocketType} {ρ : Type}
  {fine fine' : Prop}

/-- The invariant: the array is well formed, and every registered descriptor is one
that can be removed and is watched for all events. -/
structure Ready (a : ArrayMessenger) : Prop where
  wf : a.spoll.WellFormed
  pairs : ∀ pair ∈ a.spoll.pairs, 0 < pair.1 ∧ pair.2 = watched
  capacity : SPoll.initialCapacity ≤ a.spoll.capacity

/-- A result, if there is one, is what the messenger with a list gives, and if all is
`fine` there is one. -/
structure Follows (fine : Prop) (x : Option (ρ × ArrayMessenger)) (y : ρ × SMessenger) : Prop where
  same : ∀ r a, x = some (r, a) → a.Ready ∧ (r, a.list) = y
  goes : fine → ∃ r, x = some r

theorem follows_some (ready : a.Ready) (r : ρ) : Follows fine (some (r, a)) (r, a.list) where
  same r' a' eq := by
    obtain ⟨rfl, rfl⟩ := Prod.mk.inj (Option.some.inj eq)
    exact ⟨ready, rfl⟩
  goes _ := ⟨_, rfl⟩

theorem Follows.map {σ : Type} {x : Option (ρ × ArrayMessenger)} {y : ρ × SMessenger}
    (follows : Follows fine x y) (f : ρ → σ) :
    Follows fine (x.map fun r => (f r.1, r.2)) (f y.1, y.2) where
  same r a eq := by
    obtain ⟨⟨r', a'⟩, here, eq⟩ := Option.map_eq_some_iff.mp eq
    obtain ⟨rfl, rfl⟩ := Prod.mk.inj eq
    obtain ⟨ready, rfl⟩ := follows.same r' a' here
    exact ⟨ready, rfl⟩
  goes ok := by
    obtain ⟨r, here⟩ := follows.goes ok
    exact ⟨_, by rw [here]; rfl⟩

theorem Follows.weaken {x : Option (ρ × ArrayMessenger)} {y : ρ × SMessenger}
    (follows : Follows fine x y) (weaker : fine' → fine) : Follows fine' x y :=
  ⟨follows.same, fun ok => follows.goes (weaker ok)⟩

/-- Registering a descriptor appends it. -/
theorem Ready.addToPoll (ready : a.Ready) (moved : Nat → PollFd) (fd : SocketType) :
    Follows (0 < fd) (a.addToPoll moved fd)
      (0, { a.list with spoll := a.list.spoll ++ [fd] }) := by
  have nonzero : watched ≠ 0 := by decide
  constructor
  · intro r a' added
    obtain ⟨⟨ret, spoll⟩, run, eq⟩ := Option.map_eq_some_iff.mp added
    obtain ⟨rfl, rfl⟩ := Prod.mk.inj eq
    obtain ⟨rfl, allowed, wf, pairs, capacity⟩ := SPoll.inside_spec ready.wf run
    refine ⟨⟨wf, ?_, ready.capacity.trans capacity⟩, ?_⟩
    · rw [pairs]
      intro pair mem
      rcases List.mem_append.mp mem with old | new
      · exact ready.pairs pair old
      · rw [List.mem_singleton.mp new]
        exact ⟨allowed.1, rfl⟩
    · simp only [list, pairs, SPoll.callOnList, List.map_append, List.map_singleton]
  · intro positive
    obtain ⟨q, run⟩ := SPoll.inside_of_good (.add moved fd watched) ready.wf
      ⟨positive, nonzero⟩ id
    exact ⟨_, by rw [ArrayMessenger.addToPoll, run]; rfl⟩

/-- Removing a descriptor erases it. There is room when the array is not full. -/
theorem Ready.remove (ready : a.Ready) (fd : SocketType) :
    Follows (0 < fd ∧ a.spoll.size < a.spoll.capacity)
      ((a.spoll.inside (.remove fd)).map fun (ret, spoll) => (ret, { a with spoll }))
      (0, { a.list with spoll := a.list.spoll.erase fd }) := by
  constructor
  · intro r a' removed
    obtain ⟨⟨ret, spoll⟩, run, eq⟩ := Option.map_eq_some_iff.mp removed
    obtain ⟨rfl, rfl⟩ := Prod.mk.inj eq
    obtain ⟨rfl, _, wf, pairs, capacity⟩ := SPoll.inside_spec ready.wf run
    refine ⟨⟨wf, ?_, ready.capacity.trans capacity⟩, ?_⟩
    · rw [pairs]
      exact fun pair mem => ready.pairs pair (List.mem_of_mem_eraseP mem)
    · have erased : (spoll.pairs.map Prod.fst) = (a.spoll.pairs.map Prod.fst).erase fd := by
        have test : (fun pair : Int × BitVec 16 => decide (pair.1 = fd)) =
            (fun x => fd == x) ∘ Prod.fst := by
          funext pair
          exact decide_eq_decide.mpr eq_comm
        rw [pairs, List.erase_eq_eraseP, List.eraseP_map, ← test]
        rfl
      simp only [list, erased]
  · rintro ⟨positive, room⟩
    obtain ⟨q, run⟩ := SPoll.inside_of_good (.remove fd) ready.wf positive
      fun full => Int.ne_of_lt room full.1
    exact ⟨_, by rw [run]; rfl⟩

theorem Ready.setSock (ready : a.Ready) (fd : SocketType) (s : Sock) : (a.setSock fd s).Ready :=
  ⟨ready.wf, ready.pairs, ready.capacity⟩

theorem Ready.arrive (ready : a.Ready) (arrivals : SocketType → Nat) : (a.arrive arrivals).Ready :=
  ⟨ready.wf, ready.pairs, ready.capacity⟩

/-- The number a reopened socket gets is not 0. -/
def PositiveFd (fd : Option SocketType) : Prop := ∀ x ∈ fd, 0 < x

instance : DecidablePred PositiveFd := fun fd => inferInstanceAs (Decidable (∀ x ∈ fd, 0 < x))

theorem Ready.initMCast (ready : a.Ready) (moved : Nat → PollFd) (reopened : Option SocketType) :
    Follows (PositiveFd reopened) ((a.initMCast moved reopened).map fun r => ((), r.2))
      ((), a.list.initMCast reopened) := by
  cases reopened with
  | none =>
      have ready' : Ready { a with mcsock := invalidSocket } :=
        ⟨ready.wf, ready.pairs, ready.capacity⟩
      exact follows_some ready' ()
  | some fd =>
      have ready' : Ready { a.setSock fd (.dgram [] []) with mcsock := fd } :=
        ⟨ready.wf, ready.pairs, ready.capacity⟩
      exact ((ready'.addToPoll moved fd).map fun _ => ()).weaken fun positive => positive fd rfl

/-- A registered descriptor fails: it is removed, or reopened if it is the multicast
socket. -/
theorem Ready.socketErrorHandling (ready : a.Ready) (moved : Nat → PollFd) (fd : SocketType)
    (reopened : Option SocketType) :
    Follows (0 < fd ∧ a.spoll.size < a.spoll.capacity ∧ PositiveFd reopened)
      ((a.socketErrorHandling moved fd reopened).map fun a => ((), a))
      ((), a.list.socketErrorHandling fd reopened) := by
  have closed := ready.setSock fd .closed
  unfold ArrayMessenger.socketErrorHandling SMessenger.socketErrorHandling
  by_cases own : fd = a.mcsock
  · have own' : fd = a.list.mcsock := own
    rw [if_pos own, if_pos own', Option.map_map]
    exact (closed.initMCast moved reopened).weaken fun ok => ok.2.2
  · have own' : fd ≠ a.list.mcsock := own
    rw [if_neg own, if_neg own', Option.map_map]
    have removed := ((closed.remove fd).map fun _ => ()).weaken
      fun ok : 0 < fd ∧ a.spoll.size < a.spoll.capacity ∧ PositiveFd reopened => ⟨ok.1, ok.2.1⟩
    rw [Option.map_map] at removed
    exact removed

/-- The descriptor in a used slot is the one at its place in the list. -/
theorem list_spoll_getElem? {i : Nat} (used : (i : Int) < a.spoll.size) :
    a.list.spoll[i]? = some (a.spoll.fds i).fd := by
  have inside : i < a.spoll.pairs.length := by
    rw [SPoll.length_pairs]
    omega
  rw [list, List.getElem?_map, List.getElem?_eq_getElem inside, SPoll.getElem_pairs]
  rfl

theorem Ready.slot_positive (ready : a.Ready) {i : Nat} (used : (i : Int) < a.spoll.size) :
    0 < (a.spoll.fds i).fd := by
  have inside : i < a.spoll.pairs.length := by
    rw [SPoll.length_pairs]
    omega
  have watch := (ready.pairs _ (List.getElem_mem inside)).1
  rwa [SPoll.getElem_pairs] at watch

/-- There is room for a removal, and a reopened socket gets a proper number. -/
def Roomy (a : ArrayMessenger) (look : Look) : Prop :=
  a.spoll.size < a.spoll.capacity ∧ PositiveFd look.reopened

theorem Ready.visit (ready : a.Ready) (moved : Nat → PollFd) {i : Nat} {look : Look}
    (used : (i : Int) < a.spoll.size) (reported : (a.spoll.fds i).revents = look.revents) :
    Follows (a.Roomy look) (a.visit moved i look) (a.list.visit (a.spoll.fds i).fd look) := by
  have arrived := ready.arrive look.arrivals
  have positive := ready.slot_positive used
  have room : a.Roomy look → 0 < (a.spoll.fds i).fd ∧ a.spoll.size < a.spoll.capacity ∧
      PositiveFd look.reopened := fun ok => ⟨positive, ok⟩
  have problem : (a.spoll.fds i).Problem ↔ look.Problem := by
    rw [PollFd.Problem, reported, Look.Problem]
    rfl
  have readable : (look.revents &&& POLLIN ≠ 0) ↔ look.has POLLIN := Iff.rfl
  have same : (a.arrive look.arrivals).spoll.fds i = a.spoll.fds i := rfl
  have socks : (a.list.arrive look.arrivals).sock = (a.arrive look.arrivals).sock := rfl
  unfold ArrayMessenger.visit SMessenger.visit
  simp only [same, reported, problem, readable, socks]
  split
  case isFalse passed => exact follows_some arrived none
  case isTrue seen =>
    split
    case isTrue bad =>
      have handled := (arrived.socketErrorHandling moved (a.spoll.fds i).fd look.reopened).map
        fun _ => some (SMsg.ofError errcodePeerDisconnected 0 0 (a.spoll.fds i).fd)
      rw [Option.map_map] at handled
      exact handled.weaken room
    case isFalse fine =>
      split
      case isFalse silent => exact follows_some arrived none
      case isTrue has =>
        rcases nextMsg maxDatalen ((a.arrive look.arrivals).sock (a.spoll.fds i).fd) look.late
          look.later with ⟨_ | _ | ⟨msgtag, ip, port, msg⟩, s⟩
        case error =>
          have handled := ((arrived.setSock (a.spoll.fds i).fd s).socketErrorHandling moved
            (a.spoll.fds i).fd look.reopened).map
              fun _ => some (SMsg.ofError errcodePeerDisconnected 0 0 (a.spoll.fds i).fd)
          rw [Option.map_map] at handled
          exact handled.weaken room
        case pending => exact follows_some (arrived.setSock _ s) none
        case message =>
          exact follows_some (arrived.setSock _ s) _

/-- A visit that gives no message leaves the array as it was. -/
theorem visit_none_spoll {i : Nat} {look : Look}
    (visited : a.visit moved i look = some (none, a')) : a'.spoll = a.spoll := by
  have handled : ∀ {x : Option ArrayMessenger} {msg : SMsg},
      x.map (fun a => (some msg, a)) ≠ some (none, a') := by
    intro x msg eq
    obtain ⟨b, _, eq⟩ := Option.map_eq_some_iff.mp eq
    cases (Prod.mk.inj eq).1
  unfold ArrayMessenger.visit at visited
  dsimp only at visited
  split at visited
  case isFalse passed =>
    obtain ⟨_, rfl⟩ := Prod.mk.inj (Option.some.inj visited)
    rfl
  case isTrue seen =>
    split at visited
    case isTrue bad => exact absurd visited handled
    case isFalse fine =>
      split at visited
      case isFalse silent =>
        obtain ⟨_, rfl⟩ := Prod.mk.inj (Option.some.inj visited)
        rfl
      case isTrue has =>
        split at visited
        case h_1 s read => exact absurd visited handled
        case h_2 s read =>
          obtain ⟨_, rfl⟩ := Prod.mk.inj (Option.some.inj visited)
          rfl
        case h_3 msgtag ip port msg s read =>
          split at visited
          case isTrue positive => cases (Prod.mk.inj (Option.some.inj visited)).1
          case isFalse zero =>
            obtain ⟨_, rfl⟩ := Prod.mk.inj (Option.some.inj visited)
            rfl

/-- There is room for a removal, and every reopened socket gets a proper number. -/
def RoomyPass (a : ArrayMessenger) (looks : List Look) : Prop :=
  a.spoll.size < a.spoll.capacity ∧ ∀ look ∈ looks, PositiveFd look.reopened

theorem RoomyPass.getD {looks : List Look} (roomy : a.RoomyPass looks) (i : Nat) :
    a.Roomy (looks.getD i .quiet) := by
  refine ⟨roomy.1, ?_⟩
  rw [List.getD_eq_getElem?_getD]
  cases entry : looks[i]? with
  | none => exact fun x mem => by cases mem
  | some look => exact roomy.2 look (List.mem_of_getElem? entry)

end ArrayMessenger

namespace SMessenger

theorem visit_quiet (m : SMessenger) (fd : SocketType) : m.visit fd .quiet = (none, m) := by
  have silent : ∀ flag, ¬ Look.quiet.has flag := by
    intro flag
    simp [Look.has, Look.quiet]
  have idle : m.visit fd .quiet = (none, m.arrive Look.quiet.arrivals) :=
    visit_idle (.inr ⟨by simp [Look.Problem, silent], silent POLLIN⟩)
  have same : m.arrive Look.quiet.arrivals = m := by
    simp only [SMessenger.arrive, Look.quiet, Sock.arrive_zero]
  rw [idle, same]

/-- An entry for which nothing is said is passed over. -/
theorem pass_zip_cons (m : SMessenger) (fd : SocketType) (rest : List SocketType)
    (looks : List Look) :
    m.pass ((fd :: rest).zip looks) =
      if (m.visit fd (looks.headD .quiet)).1 = none then
        (m.visit fd (looks.headD .quiet)).2.pass (rest.zip looks.tail)
      else m.visit fd (looks.headD .quiet) := by
  cases looks with
  | nil => simp [visit_quiet, SMessenger.pass]
  | cons look looks => exact m.pass_cons fd look (rest.zip looks)

end SMessenger

namespace ArrayMessenger

variable {a a' : ArrayMessenger} {moved : Nat → PollFd} {fine : Prop}

/-- The walk over the slots is the pass over the list. The induction is on the slots
that are left, and the array does not change before the walk ends. -/
theorem Ready.pass (ready : a.Ready) (moved : Nat → PollFd) (looks : List Look) (n i : Nat)
    (left : (i : Int) + n = a.spoll.size)
    (reported : ∀ k : Nat, (k : Int) < a.spoll.size →
      (a.spoll.fds k).revents = (looks.getD k .quiet).revents) :
    Follows (a.RoomyPass looks) (a.pass moved looks n i)
      (a.list.pass ((a.list.spoll.drop i).zip (looks.drop i))) := by
  induction n generalizing a i with
  | zero =>
      have walked : a.list.spoll.drop i = [] := by
        apply List.drop_eq_nil_of_le
        rw [list, List.length_map, SPoll.length_pairs]
        omega
      rw [walked]
      exact follows_some ready none
  | succ n ih =>
      have used : (i : Int) < a.spoll.size := by omega
      have here : a.list.spoll.drop i = (a.spoll.fds i).fd :: a.list.spoll.drop (i + 1) := by
        obtain ⟨inside, entry⟩ := List.getElem?_eq_some_iff.mp (list_spoll_getElem? used)
        rw [List.drop_eq_getElem_cons inside, entry]
      have look : (looks.drop i).headD .quiet = looks.getD i .quiet := by
        rw [List.headD_eq_head?_getD, List.head?_drop, List.getD_eq_getElem?_getD]
      have visits := ready.visit moved used (reported i used)
      rw [here, SMessenger.pass_zip_cons, look, List.tail_drop, ArrayMessenger.pass]
      rcases visited : a.visit moved i (looks.getD i .quiet) with _ | ⟨_ | msg, b⟩
      case none =>
        refine ⟨fun r a eq => (Option.some_ne_none _ eq.symm).elim, fun roomy => ?_⟩
        obtain ⟨r, eq⟩ := visits.goes (roomy.getD i)
        exact absurd (visited.symm.trans eq) (Option.some_ne_none r).symm
      case some.none =>
        obtain ⟨ready', same⟩ := visits.same none b visited
        have kept := visit_none_spoll visited
        have listed : b.list.spoll = a.list.spoll := by simp only [list, kept]
        have roomy : a.RoomyPass looks → b.RoomyPass looks := by
          rw [RoomyPass, RoomyPass, kept]
          exact id
        have rest := ih ready' (i + 1) (by rw [kept]; omega) (by rw [kept]; exact reported)
        rw [listed] at rest
        rw [← same, if_pos rfl]
        exact rest.weaken roomy
      case some.some =>
        obtain ⟨ready', same⟩ := visits.same (some msg) b visited
        rw [← same, if_neg (Option.some_ne_none msg)]
        exact follows_some ready' (some msg)

/-- There is room for a removal in every pass. -/
def RoomyPasses (a : ArrayMessenger) (passes : List (List Look)) : Prop :=
  a.spoll.size < a.spoll.capacity ∧ ∀ looks ∈ passes, ∀ look ∈ looks, PositiveFd look.reopened

/-- A pass that gives no message leaves the array as it was. -/
theorem pass_none_spoll {looks : List Look} {n i : Nat}
    (passed : a.pass moved looks n i = some (none, a')) : a'.spoll = a.spoll := by
  induction n generalizing a i with
  | zero =>
      obtain ⟨_, rfl⟩ := Prod.mk.inj (Option.some.inj passed)
      rfl
  | succ n ih =>
      rw [ArrayMessenger.pass] at passed
      split at passed
      case h_1 stopped => cases passed
      case h_2 msg b given => cases (Prod.mk.inj (Option.some.inj passed)).1
      case h_3 b visited => exact (ih passed).trans (visit_none_spoll visited)

theorem Ready.polls (ready : a.Ready) (moved : Nat → PollFd) (passes : List (List Look)) :
    Follows (a.RoomyPasses passes) (a.polls moved passes) (a.list.polls passes) := by
  induction passes generalizing a with
  | nil => exact follows_some ready none
  | cons looks more ih =>
      let b : ArrayMessenger :=
        { a with spoll := a.spoll.report fun k => (looks.getD k .quiet).revents }
      have ready' : b.Ready := by
        refine ⟨ready.wf.report _, ?_, ready.capacity⟩
        rw [SPoll.report_pairs]
        exact ready.pairs
      have listed : b.list = a.list := by simp only [list, b, SPoll.report_pairs]
      have passes := ready'.pass moved looks b.spoll.size.toNat 0
        (by have := ready'.wf.asserts.1; omega) fun k used => SPoll.report_revents _ used
      rw [List.drop_zero, List.drop_zero, listed] at passes
      rw [ArrayMessenger.polls, SPoll.doPoll, if_pos ready.wf.asserts, SMessenger.polls_cons]
      show Follows _ (match b.pass moved looks b.spoll.size.toNat 0 with
        | none => none
        | some (some msg, a) => some (some msg, a)
        | some (none, a) => a.polls moved more) _
      rcases passed : b.pass moved looks b.spoll.size.toNat 0 with _ | ⟨_ | msg, c⟩
      case none =>
        refine ⟨fun r a eq => (Option.some_ne_none _ eq.symm).elim, fun roomy => ?_⟩
        obtain ⟨r, eq⟩ := passes.goes ⟨roomy.1, roomy.2 looks List.mem_cons_self⟩
        exact absurd (passed.symm.trans eq) (Option.some_ne_none r).symm
      case some.none =>
        obtain ⟨ready'', same⟩ := passes.same none c passed
        have kept := pass_none_spoll passed
        have roomy : a.RoomyPasses (looks :: more) → c.RoomyPasses more := by
          rw [RoomyPasses, RoomyPasses, kept]
          exact fun ok => ⟨ok.1, fun looks mem => ok.2 looks (List.mem_cons_of_mem _ mem)⟩
        rw [← same, if_pos rfl]
        exact (ih ready'').weaken roomy
      case some.some =>
        obtain ⟨ready'', same⟩ := passes.same (some msg) c passed
        rw [← same, if_neg (Option.some_ne_none msg)]
        exact follows_some ready'' (some msg)

/-- The descriptors the kernel hands out in the call are not 0. -/
def PositiveEnv (env : RecvEnv) : Prop :=
  (∀ connection ∈ env.listen.accepted, 0 < connection.1) ∧
    ∀ looks ∈ env.passes, ∀ look ∈ looks, PositiveFd look.reopened

instance : DecidablePred PositiveEnv := fun _ => inferInstanceAs (Decidable (_ ∧ _))

/-- The server socket first. One connection at most is registered. -/
theorem Ready.listenConn (ready : a.Ready) (moved : Nat → PollFd) (listen : Listen) :
    Follows (∀ connection ∈ listen.accepted, 0 < connection.1) (a.listenConn moved listen)
      (a.list.listenConn listen) := by
  cases listen with
  | idle => exact follows_some ready 0
  | broken reopened =>
      cases reopened with
      | none =>
          have ready' : Ready { a with servsock := invalidSocket } :=
            ⟨ready.wf, ready.pairs, ready.capacity⟩
          exact follows_some ready' (-1)
      | some fd =>
          have ready' : Ready { a with servsock := fd } := ⟨ready.wf, ready.pairs, ready.capacity⟩
          exact follows_some ready' 0
  | incoming accepted =>
      cases accepted with
      | none => exact follows_some ready (-1)
      | some connection =>
          obtain ⟨fd, s⟩ := connection
          exact (((ready.setSock fd s).addToPoll moved fd).map fun _ => (0 : Int)).weaken
            fun positive => positive _ rfl

theorem Ready.size_eq (ready : a.Ready) : a.spoll.size = a.list.spoll.length := by
  rw [list, List.length_map, SPoll.length_pairs]
  exact (Int.toNat_of_nonneg ready.wf.asserts.1).symm

theorem length_listenConn (m : SMessenger) (listen : Listen) :
    (m.listenConn listen).2.spoll.length ≤ m.spoll.length + 1 := by
  rcases listen with _ | (_ | fd) | (_ | connection)
  case incoming.some => simp [SMessenger.listenConn]
  all_goals exact Nat.le_succ _

/-- With at most eight descriptors registered there is room in the first block for one
more, and then for a removal. -/
theorem Ready.recv (ready : a.Ready) (behind : Behind) (env : RecvEnv) :
    Follows (a.list.spoll.length ≤ 8 ∧ PositiveEnv env) (a.recv behind env) (a.list.recv env) := by
  have listens := ready.listenConn behind.connection env.listen
  have length := length_listenConn a.list env.listen
  rw [ArrayMessenger.recv, SMessenger.recv]
  rcases listened : a.listenConn behind.connection env.listen with _ | ⟨res, b⟩
  · refine ⟨fun r a eq => (Option.some_ne_none _ eq.symm).elim, fun easy => ?_⟩
    obtain ⟨r, eq⟩ := listens.goes easy.2.1
    exact absurd (listened.symm.trans eq) (Option.some_ne_none r).symm
  · obtain ⟨ready', same⟩ := listens.same res b listened
    rw [← same] at length ⊢
    dsimp only
    split
    case isTrue failed => exact follows_some ready' none
    case isFalse fine =>
      refine (ready'.polls behind.multicast env.passes).weaken fun easy => ⟨?_, easy.2.2⟩
      have capacity := ready'.capacity
      have size := ready'.size_eq
      have grown : b.list.spoll.length ≤ a.list.spoll.length + 1 := length
      rw [SPoll.initialCapacity] at capacity
      omega

theorem Ready.connect (ready : a.Ready) (behind : Behind) (client : Option (SocketType × Sock))
    (polled : Bool) :
    Follows (∀ connection ∈ client, 0 < connection.1) (a.connect behind client polled)
      (a.list.connect client polled) := by
  cases client with
  | none => exact follows_some ready (-1)
  | some connection =>
      obtain ⟨fd, s⟩ := connection
      have opened := ready.setSock fd s
      cases polled with
      | false => exact follows_some opened (-1)
      | true =>
          have added := (opened.addToPoll behind.connection fd).weaken
            fun positive : ∀ connection ∈ some (fd, s), 0 < connection.1 => positive _ rfl
          constructor
          · intro r b eq
            obtain ⟨⟨ret, c⟩, here, eq⟩ := Option.map_eq_some_iff.mp eq
            obtain ⟨ready', same⟩ := added.same ret c here
            obtain ⟨rfl, listed⟩ := Prod.mk.inj same
            obtain ⟨rfl, rfl⟩ := Prod.mk.inj eq
            refine ⟨ready', ?_⟩
            rw [listed]
            rfl
          · intro positive
            obtain ⟨r, here⟩ := added.goes positive
            exact ⟨_, congrArg (Option.map _) here⟩

end ArrayMessenger

end LibSBus
