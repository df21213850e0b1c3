import Mathlib.Data.List.Basic
import Mathlib.Logic.Function.Basic

/-!
`SPoll`, the growing array of descriptors handed to `poll`. The array is the
memory from the start of its block: slots past the capacity exist and hold
whatever the allocator left there, and reading one is possible, as in C. Every
operation lists the slots it touches together with the number of slots of the
block at that moment. `ASSERT` ends the process, so an operation whose
assertion fails has no result. `realloc` is taken to succeed.
-/

namespace LibSBus

/-- `struct pollfd` -/
structure PollFd where
  fd : Int
  events : BitVec 16
  revents : BitVec 16
deriving DecidableEq

/-- What `bzero` and `calloc` leave in a slot. -/
def PollFd.zero : PollFd := { fd := 0, events := 0, revents := 0 }

/-- A read or write of slot `index` while the block has `limit` slots. -/
structure Access where
  index : Nat
  limit : Nat
deriving DecidableEq

def Access.InBounds (a : Access) : Prop := a.index < a.limit

instance (a : Access) : Decidable a.InBounds := inferInstanceAs (Decidable (_ < _))

structure SPoll where
  fds : Nat → PollFd
  size : Int
  capacity : Nat

namespace SPoll

def initialCapacity : Nat := 10
def growSize : Nat := 5

/-- The accesses to `n` slots from `first` on. -/
def span (limit first n : Nat) : List Access :=
  (List.range' first n).map fun index => { index, limit }

/-- `SPoll::SPoll`. `beyond` is the memory after the block `calloc` returns. -/
def create (beyond : Nat → PollFd) : SPoll where
  fds := fun k => if k < initialCapacity then .zero else beyond k
  size := 0
  capacity := initialCapacity

/-- The assertions every operation starts with. -/
def Asserts (p : SPoll) : Prop := 0 ≤ p.size ∧ p.size ≤ p.capacity

instance (p : SPoll) : Decidable p.Asserts := inferInstanceAs (Decidable (_ ∧ _))

/-- `SPoll::grow`. `moved` is the memory `realloc` puts after the old slots; the
five slots the capacity gains are cleared. Its assertions are those `add` has
just checked. -/
def grow (moved : Nat → PollFd) (p : SPoll) : SPoll × List Access :=
  let newcapacity := growSize + p.capacity
  let fds := fun k => if k < p.capacity then p.fds k else moved k
  let cleared := fun k =>
    if p.capacity ≤ k ∧ k < p.capacity + growSize then PollFd.zero else fds k
  ({ p with fds := cleared, capacity := newcapacity }, span newcapacity p.capacity growSize)

/-- `SPoll::removeit`. The slots moved down are `size-i` many from `i+1` on, so
the last one read is slot `size`. -/
def removeit (i : Nat) (p : SPoll) : Option (SPoll × List Access) :=
  if ¬ (p.Asserts ∧ i ≤ p.capacity) then none
  else if (i : Int) + 1 < p.size then
    let n := (p.size - i).toNat
    let fds := fun k => if i ≤ k ∧ k < i + n then p.fds (k + 1) else p.fds k
    some ({ p with fds, size := p.size - 1 },
      ⟨i, p.capacity⟩ :: (span p.capacity (i + 1) n ++ span p.capacity i n))
  else
    some ({ p with fds := Function.update p.fds i .zero, size := p.size - 1 },
      [⟨i, p.capacity⟩, ⟨i, p.capacity⟩])

/-- The loop `for(...;i<capacity;i++) if(fds[i].fd==fd)` of `add` and `remove`
over `n` slots from `i` on: the slot where it stops and the slots it reads. -/
def scan (fds : Nat → PollFd) (fd : Int) (limit : Nat) : Nat → Nat → Option Nat × List Access
  | 0, _ => (none, [])
  | n + 1, i =>
      if (fds i).fd = fd then (some i, [⟨i, limit⟩])
      else
        let rest := scan fds fd limit n (i + 1)
        (rest.1, ⟨i, limit⟩ :: rest.2)

/-- The loop of `add`: the descriptor goes into the first slot found clear. The
result comes with the slots touched so far and by the loop. -/
def place (fd : Int) (events : BitVec 16) (touched : List Access) (p : SPoll) :
    Int × SPoll × List Access :=
  match scan p.fds 0 p.capacity (p.capacity - p.size.toNat) p.size.toNat with
  | (some i, seen) =>
      let slot := { p.fds i with fd, events }
      (0, { p with fds := Function.update p.fds i slot, size := p.size + 1 },
        touched ++ seen ++ [⟨i, p.capacity⟩])
  | (none, seen) => (-1, p, touched ++ seen)

/-- `SPoll::add`: the result, the array after it and the slots touched. -/
def add (moved : Nat → PollFd) (fd : Int) (events : BitVec 16) (p : SPoll) :
    Option (Int × SPoll × List Access) :=
  if ¬ (0 < fd ∧ events ≠ 0 ∧ p.Asserts) then none
  else if (p.capacity : Int) ≤ p.size then
    let (q, touched) := p.grow moved
    some (q.place fd events touched)
  else some (p.place fd events [])

/-- `SPoll::remove` -/
def remove (fd : Int) (p : SPoll) : Option (Int × SPoll × List Access) :=
  if ¬ (p.Asserts ∧ 0 < fd) then none
  else
    match scan p.fds fd p.capacity p.capacity 0 with
    | (some i, seen) =>
        (removeit i p).map fun (q, touched) => (0, q, seen ++ touched)
    | (none, seen) => some (0, p, seen)

/-- `SPoll::getpolls`: the first `size` slots. -/
def getpolls (p : SPoll) : List PollFd := (List.range p.size.toNat).map p.fds

/-- A call of one of the two public operations that change the array. -/
inductive Op where
  | add (moved : Nat → PollFd) (fd : Int) (events : BitVec 16)
  | remove (fd : Int)

def exec (p : SPoll) : Op → Option (Int × SPoll × List Access)
  | .add moved fd events => p.add moved fd events
  | .remove fd => p.remove fd

/-- The array after a call, if the call returns. -/
def next (p : SPoll) (op : Op) : Option SPoll := (p.exec op).map fun (_, q, _) => q

/-- The calls the interface allows: descriptors are positive, some event is asked for. -/
def Op.Allowed : Op → Prop
  | .add _ fd events => 0 < fd ∧ events ≠ 0
  | .remove fd => 0 < fd

/-- The used slots hold descriptors and the rest of the block is clear. `add`
finds its slot, and `remove` its end, because of the second part. -/
structure WellFormed (p : SPoll) : Prop where
  asserts : p.Asserts
  used : ∀ k : Nat, (k : Int) < p.size → (p.fds k).fd ≠ 0
  clear : ∀ k : Nat, p.size ≤ k → k < p.capacity → p.fds k = .zero

end SPoll

end LibSBus
