import LibSBus.SMessenger.Bytes

/-!
Which connections a call of `recv` closes. It closes one at most, the one it reports,
and then it returns the report and no message: what was left in the socket is lost. A
connection of which nothing is reported stays open.
-/

namespace LibSBus

open Lib

namespace SMessenger

variable {m m' m'' : SMessenger} {out : Option SMsg} {fd x : SocketType}

/-- What holds of a visit, and of one part of a call after another that gave no message,
holds of the loop of `recv`. -/
theorem polls_rule {R : SMessenger → Option SMsg → SMessenger → Prop} {P : Look → Prop}
    (refl : ∀ m, R m none m)
    (trans : ∀ m m' out m'', R m none m' → R m' out m'' → R m out m'')
    (visit : ∀ m fd look, P look → R m (m.visit fd look).1 (m.visit fd look).2)
    (passes : List (List Look)) (fine : ∀ looks ∈ passes, ∀ look ∈ looks, P look)
    (m : SMessenger) : R m (m.polls passes).1 (m.polls passes).2 := by
  have pass : ∀ (entries : List (SocketType × Look)), (∀ entry ∈ entries, P entry.2) → ∀ m,
      R m (m.pass entries).1 (m.pass entries).2 := by
    intro entries
    induction entries with
    | nil => exact fun _ m => refl m
    | cons entry rest ih =>
        obtain ⟨fd, look⟩ := entry
        intro fine m
        obtain ⟨here, later⟩ := List.forall_mem_cons.mp fine
        have first := visit m fd look here
        rw [pass_cons]
        split
        case isTrue nothing =>
          rw [nothing] at first
          exact trans _ _ _ _ first (ih later _)
        case isFalse message => exact first
  induction passes generalizing m with
  | nil => exact refl m
  | cons looks more ih =>
      obtain ⟨here, later⟩ := List.forall_mem_cons.mp fine
      have first := pass (m.spoll.zip looks) (fun entry mem => here _ (List.of_mem_zip mem).2) m
      rw [polls_cons]
      split
      case isTrue nothing =>
        rw [nothing] at first
        exact trans _ _ _ _ first (ih later _)
      case isFalse message => exact first

/-- What a part of a call does to the connection on `x`: it stays open and nothing is
said of its end, or it is closed and this is what is returned. -/
def Accounts (x : SocketType) (m : SMessenger) (out : Option SMsg) (m' : SMessenger) : Prop :=
  (m.sock x).kind = .stream →
    ((m'.sock x).kind = .stream ∧ ∀ msg ∈ out, msg.socket = x → msg.error = false) ∨
      ((m'.sock x).kind ≠ .stream ∧ out = some (SMsg.ofError errcodePeerDisconnected 0 0 x))

theorem accounts_untouched (untouched : Untouched m m')
    (data : ∀ msg ∈ out, msg.error = false) : Accounts x m out m' :=
  fun stream => .inl ⟨(untouched.kind x).trans stream, fun msg mem _ => data msg mem⟩

theorem Accounts.trans (first : Accounts x m none m') (second : Accounts x m' out m'') :
    Accounts x m out m'' := by
  intro stream
  rcases first stream with ⟨open_, _⟩ | ⟨_, nothing⟩
  · exact second open_
  · cases nothing

/-- The socket that fails is closed, and no other connection is, as long as the number of
one is not given to the multicast socket. -/
theorem accounts_error (untouched : Untouched m m') {reopened : Option SocketType}
    (spared : reopened ≠ some x) :
    Accounts x m (some (SMsg.ofError errcodePeerDisconnected 0 0 fd))
      (m'.socketErrorHandling fd reopened) := by
  intro stream
  rw [← untouched.kind x] at stream
  have sock : (m'.socketErrorHandling fd reopened).sock x = (m'.setSock fd .closed).sock x := by
    unfold socketErrorHandling
    split
    case isFalse connection => rfl
    case isTrue multicast =>
      cases reopened with
      | none => rfl
      | some y => exact setSock_of_ne _ _ fun same => spared (congrArg some same.symm)
  rw [sock]
  by_cases here : x = fd
  · subst here
    rw [setSock_self]
    exact .inr ⟨Kind.noConfusion, rfl⟩
  · rw [setSock_of_ne m' _ here]
    refine .inl ⟨stream, ?_⟩
    rintro msg mem rfl
    obtain rfl := Option.mem_some_iff.mp mem
    exact absurd rfl here

theorem visit_accounts (m : SMessenger) (fd : SocketType) (look : Look)
    (spared : look.reopened ≠ some x) : Accounts x m (m.visit fd look).1 (m.visit fd look).2 := by
  have arrived := untouched_arrive m look.arrivals
  have read := nextMsg_kind maxDatalen ((m.arrive look.arrivals).sock fd) look.late look.later
  unfold visit
  dsimp only
  split
  case isFalse passed => exact accounts_untouched arrived fun _ mem => by cases mem
  case isTrue reported =>
    split
    case isTrue problem => exact accounts_error arrived spared
    case isFalse fine =>
      split
      case isFalse silent => exact accounts_untouched arrived fun _ mem => by cases mem
      case isTrue readable =>
        split
        case h_1 s eq =>
          rw [eq] at read
          exact accounts_error (arrived.setSock read) spared
        case h_2 s eq =>
          rw [eq] at read
          exact accounts_untouched (arrived.setSock read) fun _ mem => by cases mem
        case h_3 msgtag ip port msg s eq =>
          rw [eq] at read
          split
          case isTrue positive =>
            apply accounts_untouched (arrived.setSock read)
            intro _ mem
            obtain rfl := Option.mem_some_iff.mp mem
            rfl
          case isFalse negative =>
            exact accounts_untouched (arrived.setSock read) fun _ mem => by cases mem

/-- The kernel may answer a call of `recv` so: all descriptors it hands out were closed. -/
def Offers (m : SMessenger) (env : RecvEnv) : Prop :=
  (∀ connection ∈ env.listen.accepted, m.Handed connection.1 connection.2) ∧
    ∀ looks ∈ env.passes, ∀ look ∈ looks, ∀ fd ∈ look.reopened,
      ((m.listenConn env.listen).2.sock fd).kind ≠ .stream

instance (m : SMessenger) (env : RecvEnv) : Decidable (m.Offers env) := by
  unfold Offers
  infer_instance

/-- A call of `recv` once the server socket was looked at. -/
theorem recv_accounts {env : RecvEnv} (offers : m.Offers env) (x : SocketType) :
    Accounts x (m.listenConn env.listen).2 (m.recv env).1 (m.recv env).2 := by
  intro stream
  have eq : m.recv env = if (m.listenConn env.listen).1 < 0 then
      (none, (m.listenConn env.listen).2) else (m.listenConn env.listen).2.polls env.passes := rfl
  rw [eq]
  split
  case isTrue failed => exact .inl ⟨stream, fun _ mem => by cases mem⟩
  case isFalse listened =>
    refine polls_rule (R := Accounts x) (P := fun look => look.reopened ≠ some x) ?_
      (fun _ _ _ _ => Accounts.trans) visit_accounts env.passes ?_ _ stream
    · exact fun m => accounts_untouched (untouched_refl m) fun _ mem => by cases mem
    · intro looks mem look seen same
      exact offers.2 looks mem look seen x same stream

end SMessenger

end LibSBus
