import LibSBus.SockAddr
import LibSBus.SMessenger.Registered

/-!
`SMessenger::connect` call by call: `socket`, `connect`, the `poll` that waits for
the connection, and `SPoll::add`. `stcp_client` assigns to `errno` where it means
to test it, so a connection that is refused passes for one in progress, and
`stcp_waitConnection` looks neither at what `poll` counted nor at the events. And
no early return closes the socket.
-/

namespace LibSBus

def POLLOUT : BitVec 16 := 0x004

def EAGAIN : Int := 11
def EWOULDBLOCK : Int := 11

/-- What `connect` on a non-blocking socket does: it has connected, has begun to
(-1 with `EINPROGRESS`), or fails. -/
inductive Connected
  | done
  | inProgress
  | failed
deriving DecidableEq

/-- What `poll` on the socket returns: -1, 0 when the time is over, or a count with
the events. -/
inductive Waited
  | error
  | timeout
  | ready (revents : BitVec 16)
deriving DecidableEq

/-- What the calls find: the new descriptor and what it is open on, how its
connection goes, and whether the table of `spoll` can grow. -/
structure ConnectEnv where
  socket : Option (SocketType × Sock)
  connected : Connected
  waited : Waited
  added : Bool

namespace ConnectEnv

/-- The connection is there when `poll` has returned: it was at once, or the socket
has become writable without an error. -/
def Established (env : ConnectEnv) : Prop :=
  match env.connected, env.waited with
  | .done, _ => True
  | .inProgress, .ready revents =>
      revents &&& POLLOUT ≠ 0 ∧ revents &&& POLLERR = 0 ∧ revents &&& POLLHUP = 0
  | _, _ => False

instance : DecidablePred Established := fun env =>
  match env with
  | ⟨_, .done, _, _⟩ => .isTrue trivial
  | ⟨_, .inProgress, .ready _, _⟩ => inferInstanceAs (Decidable (_ ∧ _ ∧ _))
  | ⟨_, .inProgress, .error, _⟩ => .isFalse id
  | ⟨_, .inProgress, .timeout, _⟩ => .isFalse id
  | ⟨_, .failed, _, _⟩ => .isFalse id

end ConnectEnv

/-- `stcp_waitConnection` -/
def stcpWaitConnection : Waited → Int
  | .error => -1
  | .timeout => 0
  | .ready _ => 0

namespace SMessenger

/-- `stcp_client` -/
def stcpClient (m : SMessenger) (env : ConnectEnv) : SocketType × SMessenger :=
  match env.socket with
  | none => (-1, m)
  | some (sock, s) =>
      let m := m.setSock sock s
      if env.connected ≠ .done then
        -- `if((errno=EAGAIN)||(errno=EWOULDBLOCK))` tests the values assigned
        if EAGAIN ≠ 0 ∨ EWOULDBLOCK ≠ 0 then (sock, m) else (-1, m)
      else (sock, m)

/-- The body of `SMessenger::connect`, with what its calls find. -/
def connectWith (m : SMessenger) (env : ConnectEnv) : SocketType × SMessenger :=
  match m.stcpClient env with
  | (fd, m) =>
      if fd < 0 then (-1, m)
      else if stcpWaitConnection env.waited < 0 then (-1, m)
      else if env.added then (fd, { m with spoll := m.spoll ++ [fd] })
      else (-1, m)

/-- `SMessenger::connect`: the address reaches the kernel as a text and a port. -/
def connectTo (m : SMessenger) (kernel : CString → Port → ConnectEnv) (ip : IP) (port : Port) :
    SocketType × SMessenger := m.connectWith (kernel (int2ip ip) port)

/-- The open descriptors. -/
def openFds (m : SMessenger) : Set SocketType := {fd | (m.sock fd).kind ≠ .closed}

/-- The kernel gives a descriptor that is free, or none. -/
def HandsOut (m : SMessenger) (env : ConnectEnv) : Prop :=
  ∀ connection ∈ env.socket, m.Handed connection.1 connection.2

/-- What is promised of what a call returns and leaves: a registered descriptor with
an established connection, or -1 and nothing changed. -/
def ConnectKeeps (m : SMessenger) (env : ConnectEnv) (result : SocketType × SMessenger) : Prop :=
  (0 ≤ result.1 ∧ env.Established ∧ result.1 ∈ result.2.spoll) ∨
  (result.1 = -1 ∧ result.2.openFds = m.openFds ∧ result.2.spoll = m.spoll)

/-- The peer refuses the connection, which `poll` reports, and the descriptor is
returned all the same. -/
theorem refused_connection_returned :
    ¬ ∀ (m : SMessenger) (kernel : CString → Port → ConnectEnv) (ip : IP) (port : Port),
      m.HandsOut (kernel (int2ip ip) port) →
      m.ConnectKeeps (kernel (int2ip ip) port) (m.connectTo kernel ip port) := by
  intro always
  let m : SMessenger :=
    { servsock := 3, mcsock := 4, ip := 1, port := 1, spoll := [4], sock := fun _ => .closed }
  let env : ConnectEnv :=
    { socket := some (5, .stream [] [] false 2), connected := .inProgress
      waited := .ready (POLLERR ||| POLLHUP), added := true }
  have handed : m.HandsOut env := by
    intro connection made
    obtain rfl := Option.some.inj made
    exact ⟨by decide, rfl, by decide, rfl⟩
  rcases always m (fun _ _ => env) 2 10 handed with ⟨_, established, _⟩ | ⟨failed, _⟩
  · exact absurd established.2.1 (by decide)
  · have returned : (m.connectWith env).1 = 5 := rfl
    exact absurd (returned.symm.trans failed) (by decide)

variable {m : SMessenger} {env : ConnectEnv}

/-- Where the kernel gives no socket, nothing is done. -/
theorem connectWith_of_none (none : env.socket = none) : m.connectWith env = (-1, m) := by
  simp [connectWith, stcpClient, none]

/-- With a socket, only the `poll` and the registration make a difference. -/
theorem connectWith_of_socket {fd : SocketType} {s : Sock} (positive : 0 ≤ fd)
    (made : env.socket = some (fd, s)) :
    m.connectWith env =
      if env.waited ≠ .error ∧ env.added = true then
        (fd, { m.setSock fd s with spoll := m.spoll ++ [fd] })
      else (-1, m.setSock fd s) := by
  have client : m.stcpClient env = (fd, m.setSock fd s) := by
    simp [stcpClient, made, EAGAIN]
  have waits : stcpWaitConnection env.waited < 0 ↔ env.waited = .error := by
    cases env.waited <;> simp [stcpWaitConnection]
  rw [connectWith, client]
  dsimp only
  rw [if_neg (Int.not_lt.mpr positive)]
  simp only [waits]
  by_cases failed : env.waited = .error
  · simp [failed]
  · simp [failed, setSock]

/-- Where the registration succeeds, this is the `connect` that takes what
`stcp_client` and the `poll` come to as given. -/
theorem connectWith_eq_connect (handed : m.HandsOut env) (added : env.added = true) :
    m.connectWith env = m.connect env.socket (decide (env.waited ≠ .error)) := by
  cases made : env.socket with
  | none =>
      rw [connectWith_of_none made]
      rfl
  | some connection =>
      obtain ⟨positive, _⟩ := handed connection made
      rw [connectWith_of_socket positive made, added]
      simp [connect, setSock]

/-- A descriptor that was handed out is open, and was not before. -/
theorem openFds_setSock {fd : SocketType} {s : Sock} (handed : m.Handed fd s) :
    (m.setSock fd s).openFds ≠ m.openFds := by
  obtain ⟨_, closed, _, stream⟩ := handed
  intro same
  have new : fd ∈ (m.setSock fd s).openFds := by
    show ((m.setSock fd s).sock fd).kind ≠ .closed
    rw [setSock_self, stream]
    decide
  rw [same] at new
  exact new closed

/-- Whatever the calls answer, `connect` does as promised exactly if there is no
socket, or the `poll` and the registration succeed and the connection is
established. -/
theorem connect_keeps_iff (m : SMessenger) (kernel : CString → Port → ConnectEnv) (ip : IP)
    (port : Port) (handed : m.HandsOut (kernel (int2ip ip) port)) :
    m.ConnectKeeps (kernel (int2ip ip) port) (m.connectTo kernel ip port) ↔
      (kernel (int2ip ip) port).socket = none ∨
      ((kernel (int2ip ip) port).waited ≠ .error ∧ (kernel (int2ip ip) port).added = true ∧
        (kernel (int2ip ip) port).Established) := by
  generalize env_eq : kernel (int2ip ip) port = env at handed ⊢
  rw [connectTo, env_eq]
  cases made : env.socket with
  | none =>
      apply iff_of_true _ (.inl rfl)
      rw [connectWith_of_none made]
      exact .inr ⟨rfl, rfl, rfl⟩
  | some connection =>
      obtain ⟨fd, s⟩ := connection
      have given := handed _ made
      have positive : 0 ≤ fd := given.1
      rw [connectWith_of_socket positive made]
      by_cases success : env.waited ≠ .error ∧ env.added = true
      · rw [if_pos success]
        constructor
        · rintro (⟨_, established, _⟩ | ⟨failed, _⟩)
          · exact .inr ⟨success.1, success.2, established⟩
          · have returned : fd = -1 := failed
            exact absurd positive (by rw [returned]; decide)
        · rintro (none | ⟨_, _, established⟩)
          · cases none
          · have registered : fd ∈ m.spoll ++ [fd] :=
              List.mem_append_right _ (List.mem_singleton_self fd)
            exact .inl ⟨positive, established, registered⟩
      · rw [if_neg success]
        constructor
        · rintro (⟨returned, _⟩ | ⟨_, same, _⟩)
          · have nonnegative : (0 : Int) ≤ -1 := returned
            exact absurd nonnegative (by decide)
          · exact absurd same (openFds_setSock given)
        · rintro (none | ⟨polled, added, _⟩)
          · cases none
          · exact absurd ⟨polled, added⟩ success

/-- The connection is accepted while `connect` waits for it. -/
theorem connect_keeps_iff_accepted :
    ∃ m : SMessenger, ∃ env : ConnectEnv, env.connected = .inProgress ∧
      m.ConnectKeeps env (m.connectTo (fun _ _ => env) 2 10) := by
  let m : SMessenger :=
    { servsock := 3, mcsock := 4, ip := 1, port := 1, spoll := [4], sock := fun _ => .closed }
  let env : ConnectEnv :=
    { socket := some (5, .stream [] [] false 2), connected := .inProgress
      waited := .ready POLLOUT, added := true }
  have handed : m.HandsOut env := by
    intro connection made
    obtain rfl := Option.some.inj made
    exact ⟨by decide, rfl, by decide, rfl⟩
  refine ⟨m, env, rfl, (connect_keeps_iff m (fun _ _ => env) 2 10 handed).mpr (.inr ?_)⟩
  exact ⟨by decide, rfl, by decide⟩

end SMessenger

end LibSBus
