import LibSBus.Lib.Inet
import LibSBus.SBus.Loopback

/-!
How `SMessenger::SMessenger` finds its address without a device. It counts the
interfaces with one query and has a second query fill an array of that many
elements. Both walk the entries up to one without a name, which a full array does
not have, and the element it takes is the one before the count.
-/

namespace LibSBus

open Lib

/-- A `struct ifreq` as `SIOCGIFCONF` fills it. An interface has a name. -/
structure Ifreq where
  name : CString
  sinAddr : BitVec 32
  named : name ≠ []

/-- A read or write of the array `ifrs` of a query, or of the array `ips`, which has
been allocated for `limit` elements. -/
inductive ArrayAccess
  | entry (index : Nat)
  | store (index : Nat) (limit : Int) (ip : IP)
  | load (index : Int) (limit : Int)

namespace ArrayAccess

def Inside : ArrayAccess → Prop
  | .entry index => index < maxExpectedInterfaces
  | .store index limit _ => (index : Int) < limit
  | .load index limit => 0 ≤ index ∧ index < limit

@[simp] theorem inside_load (index limit : Int) :
    Inside (.load index limit) ↔ 0 ≤ index ∧ index < limit := Iff.rfl

instance : DecidablePred Inside := fun a =>
  match a with
  | .entry _ => inferInstanceAs (Decidable (_ < _))
  | .store _ _ _ => inferInstanceAs (Decidable (_ < _))
  | .load _ _ => inferInstanceAs (Decidable (_ ∧ _))

/-- What the array `ips` holds at an index after these accesses; none where nothing
has been stored. -/
def stored (index : Int) (accesses : List ArrayAccess) : Option IP :=
  accesses.reverse.findSome? fun a =>
    match a with
    | .store i _ ip => if (i : Int) = index then some ip else none
    | _ => none

end ArrayAccess

/-- `ioctl(fd,SIOCGIFCONF,&ifc)`: of the configured interfaces, those that fit. -/
def siocgifconf (interfaces : List Ifreq) : List Ifreq := interfaces.take maxExpectedInterfaces

/-- `ifrs[k].ifr_name`, which is empty where `bzero` has cleared the entry. -/
def ifrName (ifrs : List Ifreq) (k : Nat) : CString := (ifrs[k]?.map Ifreq.name).getD []

/-- `ntohl(sai->sin_addr.s_addr)` of `ifrs[k]` -/
def ifrAddr (ifrs : List Ifreq) (k : Nat) : IP := swap32 ((ifrs[k]?.map Ifreq.sinAddr).getD 0)

/-- `while(ifrs[count].ifr_name[0]!='\0') { ... count++; }` with `n` entries of the
array from `count` on. There is no telling what it does once it has left the array. -/
def nameLoop (ifrs : List Ifreq) (body : Nat → List ArrayAccess) :
    Nat → Nat → Option Nat × List ArrayAccess
  | 0, count => (none, [.entry count])
  | n + 1, count =>
      if ifrName ifrs count = [] then (some count, [.entry count])
      else
        let rest := nameLoop ifrs body n (count + 1)
        (rest.1, .entry count :: (body count ++ rest.2))

/-- `sockaddr_interfaceCount`. No list stands for an `ioctl` that fails. -/
def sockaddrInterfaceCount : Option (List Ifreq) → Option Int × List ArrayAccess
  | none => (some (-1), [])
  | some interfaces =>
      let r := nameLoop (siocgifconf interfaces) (fun _ => []) maxExpectedInterfaces 0
      (r.1.map Int.ofNat, r.2)

/-- `sockaddr_ips` on an array of `limit` elements. -/
def sockaddrIpsInto (limit : Int) : Option (List Ifreq) → Option Int × List ArrayAccess
  | none => (some (-1), [])
  | some interfaces =>
      let ifrs := siocgifconf interfaces
      let r := nameLoop ifrs
        (fun count => [.entry count, .store count limit (ifrAddr ifrs count)])
        maxExpectedInterfaces 0
      (r.1.map Int.ofNat, r.2)

/-- The branch of `SMessenger::SMessenger` without a device: the address, none where
what is read has not been stored, and the accesses. -/
def takeOwnIP (first second : Option (List Ifreq)) : Option IP × List ArrayAccess :=
  match sockaddrInterfaceCount first with
  | (none, reads) => (none, reads)
  | (some ninterfaces, reads) =>
      match sockaddrIpsInto ninterfaces second with
      | (none, touched) => (none, reads ++ touched)
      | (some _, touched) =>
          (ArrayAccess.stored (ninterfaces - 1) touched,
            reads ++ (touched ++ [.load (ninterfaces - 1) ninterfaces]))

variable {ifrs interfaces : List Ifreq} {body : Nat → List ArrayAccess}

theorem ifrName_eq_nil_iff (ifrs : List Ifreq) (k : Nat) :
    ifrName ifrs k = [] ↔ ifrs.length ≤ k := by
  unfold ifrName
  cases entry : ifrs[k]? with
  | none => simpa using List.getElem?_eq_none_iff.mp entry
  | some ifreq =>
      have inside := (List.getElem?_eq_some_iff.mp entry).1
      apply iff_of_false
      · exact ifreq.named
      · omega

/-- The loop visits the entries that are filled and the one behind them. -/
theorem nameLoop_eq {n count : Nat} (room : count + n = maxExpectedInterfaces)
    (here : count ≤ ifrs.length) (fits : ifrs.length ≤ maxExpectedInterfaces) :
    nameLoop ifrs body n count =
      (if ifrs.length < maxExpectedInterfaces then some ifrs.length else none,
        (List.range' count (ifrs.length - count)).flatMap (fun k => .entry k :: body k) ++
          [.entry ifrs.length]) := by
  induction n generalizing count with
  | zero =>
      have full : ifrs.length = count := by omega
      rw [nameLoop, full, if_neg (by omega)]
      simp
  | succ n ih =>
      by_cases named : ifrName ifrs count = []
      · have last : ifrs.length = count := by
          have := (ifrName_eq_nil_iff ifrs count).mp named
          omega
        rw [nameLoop, if_pos named, last, if_pos (by omega)]
        simp
      · have inside : count < ifrs.length := by
          have := (ifrName_eq_nil_iff ifrs count).not.mp named
          omega
        obtain ⟨left, more⟩ : ∃ left, ifrs.length - count = left + 1 :=
          ⟨ifrs.length - count - 1, by omega⟩
        have less : ifrs.length - (count + 1) = left := by omega
        rw [nameLoop, if_neg named, ih (by omega) (by omega), more, less]
        simp [List.range'_succ]

theorem length_siocgifconf (interfaces : List Ifreq) :
    (siocgifconf interfaces).length = min maxExpectedInterfaces interfaces.length := by
  simp [siocgifconf]

theorem siocgifconf_of_lt (few : interfaces.length < maxExpectedInterfaces) :
    siocgifconf interfaces = interfaces := List.take_of_length_le (by omega)

/-- A query whose entries leave one empty is walked to its end. -/
theorem nameLoop_of_lt (few : interfaces.length < maxExpectedInterfaces) :
    nameLoop (siocgifconf interfaces) body maxExpectedInterfaces 0 =
      (some interfaces.length,
        (List.range interfaces.length).flatMap (fun k => .entry k :: body k) ++
          [.entry interfaces.length]) := by
  rw [siocgifconf_of_lt few, nameLoop_eq (Nat.zero_add _) (Nat.zero_le _) (by omega), if_pos few,
    List.range_eq_range', Nat.sub_zero]

theorem interfaceCount_of_lt (few : interfaces.length < maxExpectedInterfaces) :
    sockaddrInterfaceCount (some interfaces) =
      (some (interfaces.length : Int),
        (List.range interfaces.length).map .entry ++ [.entry interfaces.length]) := by
  rw [sockaddrInterfaceCount, nameLoop_of_lt few, List.map_eq_flatMap]
  rfl

theorem ipsInto_of_lt (few : interfaces.length < maxExpectedInterfaces) (limit : Int) :
    sockaddrIpsInto limit (some interfaces) =
      (some (interfaces.length : Int),
        (List.range interfaces.length).flatMap
            (fun k => [.entry k, .entry k, .store k limit (ifrAddr interfaces k)]) ++
          [.entry interfaces.length]) := by
  rw [sockaddrIpsInto, nameLoop_of_lt few, siocgifconf_of_lt few]
  rfl

/-- The walk stays inside its array when there are fewer interfaces than entries. -/
theorem nameLoop_inside_iff :
    (∀ a ∈ (nameLoop (siocgifconf interfaces) body maxExpectedInterfaces 0).2, a.Inside) ↔
      interfaces.length < maxExpectedInterfaces ∧
        ∀ k < interfaces.length, ∀ a ∈ body k, a.Inside := by
  cases Nat.lt_or_ge interfaces.length maxExpectedInterfaces with
  | inl few =>
      rw [nameLoop_of_lt few]
      simp only [List.mem_append, List.mem_flatMap, List.mem_range, List.mem_cons,
        List.not_mem_nil, or_false]
      constructor
      · intro inside
        refine ⟨few, fun k low a member => inside a (.inl ⟨k, low, .inr member⟩)⟩
      · rintro ⟨_, bodies⟩ a (⟨k, low, rfl | member⟩ | rfl)
        · exact low.trans few
        · exact bodies k low a member
        · exact few
  | inr full =>
      have length := length_siocgifconf interfaces
      rw [min_eq_left full] at length
      apply iff_of_false
      · intro inside
        have past : ArrayAccess.entry maxExpectedInterfaces ∈
            (nameLoop (siocgifconf interfaces) body maxExpectedInterfaces 0).2 := by
          rw [nameLoop_eq (Nat.zero_add _) (Nat.zero_le _) length.le, length]
          simp
        exact absurd (inside _ past) (Nat.lt_irrefl _)
      · omega

theorem interfaceCount_inside_iff (first : Option (List Ifreq)) :
    (∀ a ∈ (sockaddrInterfaceCount first).2, a.Inside) ↔
      ∀ interfaces ∈ first, interfaces.length < maxExpectedInterfaces := by
  cases first with
  | none => simp [sockaddrInterfaceCount]
  | some interfaces =>
      rw [sockaddrInterfaceCount, nameLoop_inside_iff]
      simp

theorem ipsInto_inside_iff (limit : Int) (second : Option (List Ifreq)) :
    (∀ a ∈ (sockaddrIpsInto limit second).2, a.Inside) ↔
      ∀ later ∈ second, later.length < maxExpectedInterfaces ∧
        ∀ k < later.length, (k : Int) < limit := by
  cases second with
  | none => simp [sockaddrIpsInto]
  | some later =>
      rw [sockaddrIpsInto, nameLoop_inside_iff]
      simp only [Option.mem_def, Option.some.injEq, forall_eq', List.mem_cons, List.not_mem_nil,
        or_false]
      constructor
      · rintro ⟨few, bodies⟩
        exact ⟨few, fun k low => bodies k low _ (.inr rfl)⟩
      · rintro ⟨few, below⟩
        refine ⟨few, ?_⟩
        rintro k low a (rfl | rfl)
        · exact low.trans few
        · exact below k low

/-- Whatever comes after it, the first query has been made. -/
theorem mem_takeOwnIP {first second : Option (List Ifreq)} {a : ArrayAccess}
    (member : a ∈ (sockaddrInterfaceCount first).2) : a ∈ (takeOwnIP first second).2 := by
  unfold takeOwnIP
  split
  case h_1 reads count =>
    rw [count] at member
    exact member
  case h_2 ninterfaces reads count =>
    rw [count] at member
    split
    · exact List.mem_append_left _ member
    · exact List.mem_append_left _ member

/-- Where the first query returns a count, the second is made with an array of that
many elements, and what it returns is not looked at. -/
theorem takeOwnIP_of_count {first second : Option (List Ifreq)} {ninterfaces : Int}
    {reads : List ArrayAccess}
    (count : sockaddrInterfaceCount first = (some ninterfaces, reads)) :
    (∀ a ∈ (takeOwnIP first second).2, a.Inside) ↔
      (∀ a ∈ reads, a.Inside) ∧ (∀ a ∈ (sockaddrIpsInto ninterfaces second).2, a.Inside) ∧
        1 ≤ ninterfaces := by
  have returns : (∀ a ∈ (sockaddrIpsInto ninterfaces second).2, a.Inside) →
      (sockaddrIpsInto ninterfaces second).1.isSome := by
    intro inside
    cases second with
    | none => rfl
    | some later =>
        have few := ((ipsInto_inside_iff ninterfaces _).mp inside later rfl).1
        rw [ipsInto_of_lt few]
        rfl
  cases fill : sockaddrIpsInto ninterfaces second with
  | mk ret touched =>
  rw [fill] at returns
  cases ret with
  | none =>
      have trace : (takeOwnIP first second).2 = reads ++ touched := by
        simp [takeOwnIP, count, fill]
      rw [trace]
      apply iff_of_false
      · intro inside
        exact absurd (returns fun a member => inside a (List.mem_append_right _ member)) (by simp)
      · rintro ⟨_, inside, _⟩
        exact absurd (returns inside) (by simp)
  | some ret =>
      have trace : (takeOwnIP first second).2 =
          reads ++ (touched ++ [.load (ninterfaces - 1) ninterfaces]) := by
        simp [takeOwnIP, count, fill]
      rw [trace]
      simp only [List.forall_mem_append, List.forall_mem_singleton, ArrayAccess.inside_load]
      constructor
      · rintro ⟨before, inside, low, _⟩
        exact ⟨before, inside, by omega⟩
      · rintro ⟨before, inside, some⟩
        exact ⟨before, inside, by omega, by omega⟩

/-- Every index of the two queries and of the element that is taken is inside its
array, if and only if the first query succeeds and finds an interface but leaves an
entry empty, and the second one finds no more. -/
theorem takeOwnIP_inside_iff (first second : Option (List Ifreq)) :
    (∀ a ∈ (takeOwnIP first second).2, a.Inside) ↔
      ∃ interfaces ∈ first, 1 ≤ interfaces.length ∧
        interfaces.length < maxExpectedInterfaces ∧
        ∀ later ∈ second, later.length ≤ interfaces.length := by
  cases first with
  | none =>
      -- The count is -1, and so is the size of the array.
      rw [takeOwnIP_of_count (rfl : sockaddrInterfaceCount none = (some (-1), []))]
      simp
  | some interfaces =>
      cases Nat.lt_or_ge interfaces.length maxExpectedInterfaces with
      | inl few =>
          have walked := interfaceCount_inside_iff (some interfaces)
          rw [interfaceCount_of_lt few] at walked
          rw [takeOwnIP_of_count (interfaceCount_of_lt few), walked, ipsInto_inside_iff]
          simp only [Option.mem_def, Option.some.injEq, forall_eq', exists_eq_left']
          constructor
          · rintro ⟨_, below, one⟩
            refine ⟨by omega, few, fun later found => ?_⟩
            by_contra more
            have := (below later found).2 interfaces.length (by omega)
            omega
          · rintro ⟨one, _, least⟩
            refine ⟨few, fun later found => ?_, by omega⟩
            have := least later found
            exact ⟨by omega, fun k low => by omega⟩
      | inr full =>
          have walks := (interfaceCount_inside_iff (some interfaces)).not.mpr
            (by simpa using full)
          apply iff_of_false
          · intro inside
            apply walks
            intro a member
            exact inside a (mem_takeOwnIP member)
          · rintro ⟨found, same, _, few, _⟩
            obtain rfl := Option.some.inj same
            omega

/-- As many interfaces as are expected at most, and the walk reads the entry behind
the array. -/
theorem full_table_read_past :
    ¬ ∀ first second : List Ifreq, ∀ a ∈ (takeOwnIP (some first) (some second)).2, a.Inside := by
  intro always
  let eth0 : Ifreq := { name := [101, 116, 104, 48], sinAddr := 1, named := by simp }
  let full := List.replicate maxExpectedInterfaces eth0
  have few := (interfaceCount_inside_iff (some full)).mp
    (fun a member => always full full a (mem_takeOwnIP member)) full rfl
  exact absurd few (by decide)

theorem stored_append (index : Int) (xs ys : List ArrayAccess) :
    ArrayAccess.stored index (xs ++ ys) =
      (ArrayAccess.stored index ys).or (ArrayAccess.stored index xs) := by
  simp [ArrayAccess.stored, List.findSome?_append]

/-- After a walk the array holds the addresses in order. -/
theorem stored_walk (index limit : Int) (n : Nat) (ip : Nat → IP) :
    ArrayAccess.stored index
        ((List.range n).flatMap fun k => [.entry k, .entry k, .store k limit (ip k)]) =
      if 0 ≤ index ∧ index < n then some (ip index.toNat) else none := by
  induction n with
  | zero => simp [ArrayAccess.stored]
  | succ n ih =>
      rw [List.range_succ, List.flatMap_append, stored_append, ih]
      by_cases here : (n : Int) = index
      · subst here
        simp [ArrayAccess.stored]
      · have same : (0 ≤ index ∧ index < (n + 1 : Nat)) ↔ 0 ≤ index ∧ index < n := by omega
        simp only [same]
        simp [ArrayAccess.stored, here]

/-- On a host whose interfaces stay the same, the address is the one that the summary
of the constructor takes. -/
theorem takeOwnIP_eq_ownIP (interfaces : List Ifreq) :
    (takeOwnIP (some interfaces) (some interfaces)).1 =
      ownIP (interfaces.map fun ifreq => swap32 ifreq.sinAddr) := by
  cases Nat.lt_or_ge interfaces.length maxExpectedInterfaces with
  | inl few =>
      have taken : (takeOwnIP (some interfaces) (some interfaces)).1 =
          ArrayAccess.stored (interfaces.length - 1)
            ((List.range interfaces.length).flatMap fun k =>
              [.entry k, .entry k, .store k interfaces.length (ifrAddr interfaces k)]) := by
        have behind : ArrayAccess.stored (interfaces.length - 1)
            [.entry interfaces.length] = none := rfl
        simp [takeOwnIP, interfaceCount_of_lt few, ipsInto_of_lt few, stored_append, behind]
      rw [taken, stored_walk, ownIP, sockaddrIps, List.length_map, if_pos few, Option.bind_some,
        List.getLast?_eq_getElem?, List.length_map, List.getElem?_map]
      split
      case isTrue inside =>
        have index : ((interfaces.length : Int) - 1).toNat = interfaces.length - 1 := by omega
        have here : interfaces.length - 1 < interfaces.length := by omega
        simp [index, ifrAddr, List.getElem?_eq_getElem here]
      case isFalse outside =>
        have none : interfaces = [] := List.eq_nil_of_length_eq_zero (by omega)
        simp [none]
  | inr full =>
      have length := length_siocgifconf interfaces
      rw [min_eq_left full] at length
      have lost : (sockaddrInterfaceCount (some interfaces)).1 = none := by
        rw [sockaddrInterfaceCount, nameLoop_eq (Nat.zero_add _) (Nat.zero_le _) length.le, length]
        simp
      have unknown : (takeOwnIP (some interfaces) (some interfaces)).1 = none := by
        unfold takeOwnIP
        split
        case h_1 reads count => rfl
        case h_2 ninterfaces reads count =>
          rw [count] at lost
          cases lost
      rw [unknown, ownIP, sockaddrIps, List.length_map, if_neg (by omega)]
      rfl

end LibSBus
