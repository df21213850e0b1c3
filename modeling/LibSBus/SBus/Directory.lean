import LibSBus.SBus.Knows
import LibSBus.SBus.NameTaken
import LibSBus.SBus.Pending
import LibSBus.SBus.Senders

/-!
What the instances of a network can look up about each other. Names are owned: no
two instances call themselves the same, and the first thing an instance hears of
another one is a name. Then every contact of an instance is that of another one, which
it has heard, and is found by its address, its id and the name it announced last, and a
message to it is sent to that instance. Nobody ever answers an announcement.
-/

namespace LibSBus

open Lib SContacts

variable {n : Nat} {s : Site n} {known known' : Fin n → Option CString} {i j k : Fin n} {p q : Ptr}
  {name : CString}

/-- A table that is in order and right about the instances. -/
structure Directory (s : Site n) (known : Fin n → Option CString) (c : SContacts) : Prop where
  consistent : Consistent c
  addressed : Addressed c
  knows : Knows s known c.book

namespace Directory

variable {c : SContacts} {e : CallEnv} {r : SPeerInfo}

theorem start : Directory s (fun _ => none) .empty :=
  ⟨consistent_empty, addressed_empty, knows_empty⟩

/-- The contact found by the address of an instance has its card. -/
theorem found_iff (dir : Directory s known c) :
    c.findIpPort (s.ip j) (s.port j) = some p ↔
      p ∈ c.contacts ∧ (c.info p).ip = s.ip j ∧ (c.info p).port = s.port j := by
  rw [findIpPort, dir.addressed.lookup_eq_some_iff dir.consistent.sound.addrs, SPeerInfo.getAddr,
    ipnport2addr_inj]

theorem of_iff (dir : Directory s known c) (contact : p ∈ c.contacts) :
    c.book.Of s j (c.info p).peer ↔ c.findIpPort (s.ip j) (s.port j) = some p := by
  rw [AddressBook.Of, dir.consistent.at_iff, dir.found_iff]
  constructor
  · rintro ⟨q, other, same, address⟩
    obtain rfl := peer_injOn other contact same
    exact ⟨contact, address⟩
  · rintro ⟨_, address⟩
    exact ⟨p, contact, rfl, address⟩

theorem unknown_iff (dir : Directory s known c) :
    c.findIpPort (s.ip j) (s.port j) = none ↔ known j = none := by
  constructor
  · intro missing
    rw [Option.eq_none_iff_forall_ne_some]
    intro name told
    obtain ⟨peer, _, card, shown, address⟩ := dir.knows.named j name told
    obtain ⟨p, contact, _, rfl⟩ := dir.consistent.of_card shown
    rw [dir.found_iff.mpr ⟨contact, address⟩] at missing
    cases missing
  · intro never
    rw [Option.eq_none_iff_forall_ne_some]
    intro p found
    obtain ⟨contact, _⟩ := dir.found_iff.mp found
    exact dir.knows.unheard never ((dir.of_iff contact).mpr found)

theorem touch (dir : Directory s known c) (now : Int) (p : Ptr) :
    Directory s known (c.touch now p) := by
  refine ⟨dir.consistent.touch now p, dir.addressed, ?_⟩
  rw [dir.consistent.book_touch]
  cases c.idAt p with
  | none => exact dir.knows
  | some peer => exact dir.knows.touch now peer

/-- A contact is made for an instance that was not found. The sweep that comes with it
may forget others. -/
theorem add_new (dir : Directory s known c) (apart : Apart known)
    (missing : c.findIpPort r.ip r.port = none) (own : r.peer = c.lastPeerId + 1)
    (address : r.ip = s.ip j ∧ r.port = s.port j) (unconnected : r.socket = invalidSocket)
    (new : ∀ k, known k ≠ some r.name) (e : CallEnv) :
    ∃ known', Forgets known known' ∧
      Directory s (Function.update known' j (some r.name))
        ((c.doCleanUp e.now).bump.file e r).2 := by
  obtain ⟨known', forgets, knows⟩ := dir.knows.doCleanUp apart e.now
  refine ⟨known', forgets, dir.consistent.add_new own e,
    dir.addressed.add_new dir.consistent own missing e, ?_⟩
  rw [address.1, address.2, dir.unknown_iff] at missing
  have fresh : (c.doCleanUp e.now).bump.book.card (c.lastPeerId + 1) = none := by
    rw [Option.eq_none_iff_forall_ne_some]
    intro card shown
    have cleaned := dir.consistent.removed (removed_bump dir.consistent.sound e.now)
      (dir.consistent.victims_subset e.now)
    obtain ⟨x, contact, same, _⟩ := cleaned.of_card shown
    exact dir.consistent.next_id_free own x contact (same.trans own.symm)
  rw [dir.consistent.book_bump] at fresh
  rw [dir.consistent.book_add_new own e]
  have never : known' j = none := by
    rcases forgets j with nothing | same
    · exact nothing
    · rw [same, missing]
  have counted : Knows s known' { c.book.doCleanUp e.now with lastPeerId := c.lastPeerId + 1 } :=
    knows.congr rfl rfl rfl
  exact counted.enter (filedCard e r) fresh never
    (fun k told => new k (forgets.some told)) address unconnected

/-- A contact is given a name that nobody else is known by. -/
theorem updateName (dir : Directory s known c) (apart : Apart known)
    (found : c.findIpPort (s.ip j) (s.port j) = some p)
    (new : ∀ k, k ≠ j → known k ≠ some name) (e : CallEnv) :
    Directory s (Function.update known j (some name)) (c.updateName e p name).2 := by
  obtain ⟨contact, address⟩ := dir.found_iff.mp found
  refine ⟨dir.consistent.updateName contact e name,
    dir.addressed.replace (r := { c.info p with name }) contact ⟨rfl, rfl, rfl⟩ e.now e, ?_⟩
  have renamed : (c.updateName e p name).2.book = _ :=
    dir.consistent.book_replace (r := { c.info p with name }) contact rfl e
  rw [renamed]
  have unconnected : (c.info p).socket = invalidSocket :=
    dir.knows.sockets _ _ (card_of_contact contact)
  exact dir.knows.rename (filedCard e { c.info p with name }) apart
    ((dir.of_iff contact).mpr found) new address unconnected

/-- It is still found by its address, and has its id. -/
theorem found_updateName (dir : Directory s known c)
    (found : c.findIpPort (s.ip j) (s.port j) = some p)
    (dir' : Directory s known' (c.updateName e p name).2) :
    (c.updateName e p name).2.findIpPort (s.ip j) (s.port j) = some (c.updateName e p name).1 ∧
      ((c.updateName e p name).2.info (c.updateName e p name).1).peer = (c.info p).peer := by
  obtain ⟨contact, address⟩ := dir.found_iff.mp found
  have record : (c.updateName e p name).2.info (c.updateName e p name).1 =
      { c.info p with name } := info_file_self
  rw [dir'.found_iff, record]
  exact ⟨⟨updateName_contact contact e name, address⟩, rfl⟩

end Directory

/-- A message that instance `j` sent to all, as instance `i` gets it. -/
structure Heard (s : Site n) (i j : Fin n) (smsg : SMsg) : Prop where
  data : smsg.error = false
  socket : smsg.socket = s.mcsock i
  ip : smsg.ip = s.ip j
  port : smsg.port = s.port j
  other : j ≠ i

variable {owns : Fin n → CString → Prop}

/-- The bus of instance `i` is where the site says, has a name of its own, and knows
the others by names of theirs. -/
structure SBus.Lists (s : Site n) (owns : Fin n → CString → Prop) (i : Fin n)
    (known : Fin n → Option CString) (b : SBus) : Prop where
  placed : b.serverIP = s.ip i ∧ b.serverPort = s.port i ∧ b.mcsock = s.mcsock i
  own : owns i b.name
  owned : ∀ k name, known k = some name → k ≠ i ∧ owns k name
  directory : Directory s known b.scontacts

/-- No two instances own one name. -/
def Unshared (owns : Fin n → CString → Prop) : Prop :=
  ∀ j k name, owns j name → owns k name → j = k

namespace SBus.Lists

variable {b b' d : SBus} {smsg : SMsg} {e : CallEnv} {env : StepEnv} {id : SBusPeer}
  {actions : List Action}

theorem apart (lists : b.Lists s owns i known) (unshared : Unshared owns) : Apart known :=
  fun j k name hj hk => unshared j k name (lists.owned j name hj).2 (lists.owned k name hk).2

/-- Nobody else is known by the name of the bus. -/
theorem strange (lists : b.Lists s owns i known) (unshared : Unshared owns) (k : Fin n) :
    known k ≠ some b.name := by
  intro told
  obtain ⟨other, owned⟩ := lists.owned k b.name told
  exact other (unshared k i b.name owned lists.own)

/-- The message comes from a contact with the address of its sender: the one there is,
or a new one that carries the name of the bus for now. -/
theorem sender (lists : b.Lists s owns i known) (unshared : Unshared owns)
    (heard : Heard s i j smsg) (call : b.sender e smsg = some (p, d)) :
    ∃ known', (∀ k, k ≠ j → known' k = none ∨ known' k = known k) ∧
      (known' = known ∨ known j = none) ∧ Apart known' ∧
      d = { b with scontacts := d.scontacts } ∧ Directory s known' d.scontacts ∧
      d.scontacts.findIpPort (s.ip j) (s.port j) = some p := by
  have dir := lists.directory
  have shared : ¬ smsg.socket ≠ b.mcsock :=
    not_not.mpr (heard.socket.trans lists.placed.2.2.symm)
  rcases sender_cases call with ⟨held, _⟩ | ⟨_, found, rfl⟩ | ⟨_, _, named, _⟩ |
    ⟨_, missing, _, _, rfl, rfl⟩
  · -- nobody is connected, and the multicast socket is no contact's
    have shown : b.scontacts.book.connected smsg.socket = some (b.scontacts.info p).peer :=
      Index.view_eq_some_iff.mpr ⟨p, held, rfl⟩
    have invalid := dir.knows.unconnected _ _ shown
    rw [heard.socket] at invalid
    exact absurd invalid (s.valid i)
  · rw [if_neg shared]
    rw [heard.ip, heard.port] at found
    exact ⟨known, fun _ _ => .inr rfl, .inl rfl, lists.apart unshared, rfl, dir, found⟩
  · -- a contact that carried the name of the bus would be known by it
    have shown : b.scontacts.book.named b.name = some (b.scontacts.info p).peer :=
      Index.view_eq_some_iff.mpr ⟨p, named, rfl⟩
    obtain ⟨card, shown, carries⟩ := dir.knows.names _ _ shown
    obtain ⟨k, told, _⟩ := dir.knows.cards _ card shown
    exact absurd (carries ▸ told) (lists.strange unshared k)
  · have unconnected : (b.newcomer smsg).socket = invalidSocket := if_neg shared
    obtain ⟨known', forgets, dir'⟩ := dir.add_new (r := b.newcomer smsg)
      (lists.apart unshared) missing rfl ⟨heard.ip, heard.port⟩ unconnected
      (lists.strange unshared) e
    rw [heard.ip, heard.port, dir.unknown_iff] at missing
    refine ⟨_, fun k different => ?_, .inr missing, ?_, rfl, dir', ?_⟩
    · rw [Function.update_of_ne different]
      exact forgets k
    · exact ((lists.apart unshared).forgets forgets).update fun k _ told =>
        lists.strange unshared k (forgets.some told)
    · rw [dir'.found_iff, info_file_self]
      refine ⟨?_, heard.ip, heard.port⟩
      rw [contacts_file (dir.consistent.next_id_free rfl)]
      exact Set.mem_insert _ _

theorem foreign (lists : b.Lists s owns i known) (heard : Heard s i j smsg) :
    ¬ b.isSelf smsg := by
  rintro ⟨ip, port⟩
  apply heard.other
  apply s.distinct
  · rw [← heard.ip, ip, lists.placed.1]
  · rw [← heard.port, port, lists.placed.2.1]

end SBus.Lists

/-- An announcement of a name that instance `j` owns, or a message of its application. -/
def Usual (owns : Fin n → CString → Prop) (j : Fin n) (smsg : SMsg) : Prop :=
  (smsg.msgtag = sbusManameis ∧ owns j smsg.msg) ∨ 0 < smsg.msgtag

namespace Usual

variable {b : SBus} {smsg : SMsg}

theorem not_find (usual : Usual owns j smsg) : smsg.msgtag ≠ sbusFind := by
  intro find
  rcases usual with ⟨manameis, _⟩ | user
  · exact absurd (find.symm.trans manameis) (by decide)
  · rw [find] at user
    exact absurd user (by decide)

theorem not_nametaken (usual : Usual owns j smsg) : smsg.msgtag ≠ sbusNametaken := by
  intro nametaken
  rcases usual with ⟨manameis, _⟩ | user
  · exact absurd (nametaken.symm.trans manameis) (by decide)
  · rw [nametaken] at user
    exact absurd user (by decide)

theorem owns_of_manameis (usual : Usual owns j smsg) (manameis : smsg.msgtag = sbusManameis) :
    owns j smsg.msg := by
  rcases usual with ⟨_, owned⟩ | user
  · exact owned
  · rw [manameis] at user
    exact absurd user (by decide)

/-- It asks for no reply of another instance. -/
theorem silent (usual : Usual owns j smsg) (unshared : Unshared owns) (own : owns i b.name)
    (other : j ≠ i) : b.replyTag smsg = none := by
  rw [Option.eq_none_iff_forall_ne_some]
  intro tag reply
  obtain ⟨held, ⟨find, _⟩ | ⟨manameis, _⟩⟩ := SBus.replyTag_cases reply
  · exact usual.not_find find
  · rcases usual with ⟨_, owned⟩ | user
    · exact other (unshared j i smsg.msg owned (held ▸ own))
    · rw [manameis] at user
      exact absurd user (by decide)

end Usual

namespace SBus.Lists

variable {b b' d : SBus} {smsg : SMsg} {e : CallEnv} {env : StepEnv} {id : SBusPeer}
  {actions : List Action}

/-- What is known of instance `j` once a message of it is processed, and of the others. -/
structure Learns (known known' : Fin n → Option CString) (j : Fin n) (smsg : SMsg) : Prop where
  others : ∀ k, k ≠ j → known' k = none ∨ known' k = known k
  sender : known' j = if smsg.msgtag = sbusManameis then some smsg.msg else known j

theorem Learns.owned (learns : Learns known known' j smsg) (lists : b.Lists s owns i known)
    (usual : Usual owns j smsg) (other : j ≠ i) :
    ∀ k name, known' k = some name → k ≠ i ∧ owns k name := by
  intro k name told
  by_cases here : k = j
  · subst here
    rw [learns.sender] at told
    split at told
    case isTrue manameis =>
      obtain rfl := Option.some.inj told
      exact ⟨other, usual.owns_of_manameis manameis⟩
    case isFalse quiet => exact lists.owned k name told
  · rcases learns.others k here with nothing | kept
    · rw [nothing] at told
      cases told
    · exact lists.owned k name (kept ▸ told)

/-- The name a message announces is written down, if it does. -/
theorem renamed (dir : Directory s known d.scontacts) (apart : Apart known)
    (found : d.scontacts.findIpPort (s.ip j) (s.port j) = some p)
    (new : smsg.msgtag = sbusManameis → ∀ k, k ≠ j → known k ≠ some smsg.msg)
    (usual : Usual owns j smsg) :
    ∃ known', Learns known known' j smsg ∧
      Directory s known' (d.renamed e smsg p).scontacts ∧
      ∃ q, (d.renamed e smsg p).scontacts.findIpPort (s.ip j) (s.port j) = some q ∧
        ((d.renamed e smsg p).scontacts.info q).peer = (d.scontacts.info p).peer := by
  unfold SBus.renamed
  by_cases manameis : smsg.msgtag = sbusManameis
  · rw [if_pos (.inl manameis)]
    have dir' := dir.updateName apart found (new manameis) e
    refine ⟨_, ⟨fun k different => .inr (Function.update_of_ne different _ _), ?_⟩, dir', _,
      dir.found_updateName found dir'⟩
    rw [Function.update_self, if_pos manameis]
  · have quiet : ¬ (smsg.msgtag = sbusManameis ∨ smsg.msgtag = sbusNametaken) :=
      not_or.mpr ⟨manameis, usual.not_nametaken⟩
    rw [if_neg quiet]
    exact ⟨known, ⟨fun _ _ => .inr rfl, (if_neg manameis).symm⟩, dir, p, found, rfl⟩

/-- What a message of another instance does to a bus: nothing is sent, the message
comes from the contact with the address of its sender, and an announcement gives that
contact its name. -/
theorem hears (lists : b.Lists s owns i known) (unshared : Unshared owns)
    (heard : Heard s i j smsg) (usual : Usual owns j smsg)
    (first : b.scontacts.findIpPort smsg.ip smsg.port = none → smsg.msgtag = sbusManameis)
    (call : b.processSMsg env smsg = some (id, b', actions)) :
    actions = [] ∧ ∃ known', Learns known known' j smsg ∧ b'.Lists s owns i known' ∧
      ∃ p, b'.scontacts.findIpPort (s.ip j) (s.port j) = some p ∧
        (b'.scontacts.info p).peer = id := by
  obtain ⟨p, d, found, handled⟩ := processSMsg_eq_some heard.data (lists.foreign heard) call
  obtain ⟨known₁, others, before, apart, same, dir, at_⟩ := lists.sender unshared heard found
  have own : owns i d.name := by
    rw [same]
    exact lists.own
  have silent : (d.touch env.lookup.now p).replyTag smsg = none :=
    usual.silent unshared own heard.other
  have peer_eq := handle_peer (d.touch env.lookup.now p) env p (d.scontacts.info p).peer
    usual.not_find
  rw [handled] at peer_eq
  rcases handle_cases handled with ⟨_, rfl, quiet⟩ | ⟨tag, _, reply, _⟩
  · have new : smsg.msgtag = sbusManameis → ∀ k, k ≠ j → known₁ k ≠ some smsg.msg := by
      intro manameis k different told
      rcases others k different with nothing | kept
      · rw [nothing] at told
        cases told
      · have owned := (lists.owned k _ (kept ▸ told)).2
        exact different (unshared k j _ owned (usual.owns_of_manameis manameis))
    obtain ⟨known', learns, dir', q, found', peer'⟩ := renamed (d := d.touch env.lookup.now p)
      (e := env.rename) (dir.touch env.lookup.now p) apart at_ new usual
    have learned : Learns known known' j smsg := by
      refine ⟨fun k different => ?_, ?_⟩
      · rcases learns.others k different with nothing | kept
        · exact .inl nothing
        · rw [kept]
          exact others k different
      · rw [learns.sender]
        split
        case isTrue manameis => rfl
        case isFalse user =>
          rcases before with kept | unknown
          · rw [kept]
          · rw [← lists.directory.unknown_iff, ← heard.ip, ← heard.port] at unknown
            exact absurd (first unknown) user
    obtain ⟨_, kept⟩ := (d.touch env.lookup.now p).renamed_changes (fun _ _ _ => True)
      env.rename smsg p
    refine ⟨quiet, known', learned, ⟨?_, ?_, learned.owned lists usual heard.other, dir'⟩, q,
      found', peer'.trans peer_eq.symm⟩
    · rw [kept, touch, same]
      exact lists.placed
    · rw [kept]
      exact own
  · rw [silent] at reply
    cases reply

end SBus.Lists

namespace Net

variable {net t : Net n} {event : Event n} {said : Fin n → Fin n → Option CString}
  {contested : Fin n → Bool} {pk : Packet n}

/-- Applications use their own names, and tags that are positive when they are cut to
sixteen bits. The first message of another instance that one processes is an
announcement. -/
def Orderly (owns : Fin n → CString → Prop) (net : Net n) : Event n → Prop
  | .setName i name => owns i name
  | .multicast _ msgtag _ => 0 < toShort msgtag
  | .deliver pk _ _ =>
      (net.inst pk.dst).scontacts.findIpPort pk.smsg.ip pk.smsg.port = none →
        pk.smsg.msgtag = sbusManameis

/-- The name each instance was told last by each other one. -/
def hear (said : Fin n → Fin n → Option CString) : Event n → Fin n → Fin n → Option CString
  | .deliver pk _ _, i, j =>
      if (i = pk.dst ∧ j = pk.src) ∧ pk.smsg.msgtag = sbusManameis then some pk.smsg.msg
      else said i j
  | _, i, j => said i j

def told (events : List (Event n)) : Fin n → Fin n → Option CString :=
  events.foldl hear fun _ _ => none

/-- Every message on its way is from an application or announces a name of its
sender, and every instance knows the others by what they told it last, if it knows
them. -/
structure Informed (s : Site n) (owns : Fin n → CString → Prop) (net : Net n)
    (said : Fin n → Fin n → Option CString) : Prop where
  flight : ∀ pk ∈ net.flight, Heard s pk.dst pk.src pk.smsg ∧ Usual owns pk.src pk.smsg
  lists : ∀ i, ∃ known, Forgets (said i) known ∧ (net.inst i).Lists s owns i known

theorem informed_start (default : ∀ i, owns i (safeName (s.ip i) (s.port i))) :
    Informed s owns (start s) fun _ _ => none where
  flight pk mem := by cases mem
  lists i := by
    refine ⟨fun _ => none, .refl _, ⟨rfl, rfl, rfl⟩, default i, ?_, Directory.start⟩
    rintro k name ⟨⟩

/-- What a multicast puts on its way. -/
theorem multicast_flight {msgtag : Int} {msg : CString}
    (flight : ∀ pk ∈ net.flight, Heard s pk.dst pk.src pk.smsg ∧ Usual owns pk.src pk.smsg)
    (usual : ∀ smsg : SMsg, smsg.msgtag = toShort msgtag → smsg.msg = msg → Usual owns i smsg) :
    ∀ pk ∈ (net.multicast s i contested msgtag msg).flight,
      Heard s pk.dst pk.src pk.smsg ∧ Usual owns pk.src pk.smsg := by
  intro pk mem
  rcases List.mem_append.mp mem with old | new
  · exact flight pk old
  · obtain ⟨j, other, rfl⟩ := List.mem_map.mp new
    have apart : i ≠ j := by
      rintro rfl
      simp at other
    exact ⟨⟨rfl, rfl, s.oneInterface i, rfl, apart⟩, usual _ rfl rfl⟩

theorem Informed.setName (informed : Informed s owns net said) (owned : owns i name)
    (call : net.step s (.setName i name) = some t) : Informed s owns t said := by
  obtain rfl := Option.some.inj call
  refine ⟨multicast_flight informed.flight fun smsg tag msg => .inl ⟨tag, msg ▸ owned⟩,
    fun j => ?_⟩
  obtain ⟨known, forgets, lists⟩ := informed.lists j
  refine ⟨known, forgets, ?_⟩
  show (Function.update net.inst i { net.inst i with name } j).Lists s owns j known
  rw [Function.update_apply]
  split
  case isTrue same =>
    subst same
    exact ⟨lists.placed, owned, lists.owned, lists.directory⟩
  case isFalse other => exact lists

theorem Informed.multicast {msgtag : Int} {msg : CString} (informed : Informed s owns net said)
    (user : 0 < toShort msgtag) (call : net.step s (.multicast i msgtag msg) = some t) :
    Informed s owns t said := by
  obtain rfl := Option.some.inj call
  exact ⟨multicast_flight informed.flight fun smsg tag _ => .inr (tag ▸ user), informed.lists⟩

/-- A delivery as the instance that gets the message sees it. -/
theorem Informed.hears {env : StepEnv} {id : SBusPeer} {b : SBus} {actions : List Action}
    (informed : Informed s owns net said) (unshared : Unshared owns) (mem : pk ∈ net.flight)
    (first : (net.inst pk.dst).scontacts.findIpPort pk.smsg.ip pk.smsg.port = none →
      pk.smsg.msgtag = sbusManameis)
    (call : (net.inst pk.dst).processSMsg env pk.smsg = some (id, b, actions)) :
    actions = [] ∧ ∃ known known', Forgets (said pk.dst) known ∧
      SBus.Lists.Learns known known' pk.src pk.smsg ∧ b.Lists s owns pk.dst known' ∧
      ∃ p, b.scontacts.findIpPort (s.ip pk.src) (s.port pk.src) = some p ∧
        (b.scontacts.info p).peer = id := by
  obtain ⟨heard, usual⟩ := informed.flight pk mem
  obtain ⟨known, forgets, lists⟩ := informed.lists pk.dst
  obtain ⟨quiet, known', learns, lists', found⟩ := lists.hears unshared heard usual first call
  exact ⟨quiet, known, known', forgets, learns, lists', found⟩

/-- A delivery changes the instance that gets the message, and nothing is sent. -/
theorem Informed.deliver_eq {env : StepEnv} {w : Wire} (informed : Informed s owns net said)
    (unshared : Unshared owns) (orderly : Orderly owns net (.deliver pk env w))
    (call : net.step s (.deliver pk env w) = some t) :
    pk ∈ net.flight ∧ ∃ b known known', Forgets (said pk.dst) known ∧
      SBus.Lists.Learns known known' pk.src pk.smsg ∧ b.Lists s owns pk.dst known' ∧
      t = { net.setInst pk.dst b with flight := net.flight.erase pk } := by
  obtain ⟨mem, call⟩ := Option.ite_none_right_eq_some.mp call
  obtain ⟨⟨id, b, actions⟩, processed, call⟩ := Option.bind_eq_some_iff.mp call
  obtain ⟨rfl, known, known', forgets, learns, lists', _⟩ :=
    informed.hears unshared mem orderly processed
  exact ⟨mem, b, known, known', forgets, learns, lists', (Option.some.inj call).symm⟩

theorem Informed.deliver {env : StepEnv} {w : Wire} (informed : Informed s owns net said)
    (unshared : Unshared owns) (orderly : Orderly owns net (.deliver pk env w))
    (call : net.step s (.deliver pk env w) = some t) :
    Informed s owns t (hear said (.deliver pk env w)) := by
  obtain ⟨_, b, known, known', forgets, learns, lists', rfl⟩ :=
    informed.deliver_eq unshared orderly call
  refine ⟨fun other left => informed.flight other (List.mem_of_mem_erase left), fun i => ?_⟩
  show ∃ known, Forgets _ known ∧ (Function.update net.inst pk.dst b i).Lists s owns i known
  by_cases here : i = pk.dst
  · subst here
    rw [Function.update_self]
    refine ⟨known', fun k => ?_, lists'⟩
    by_cases sender : k = pk.src
    · subst sender
      rw [learns.sender, hear]
      split
      case isTrue manameis => exact .inr (if_pos ⟨⟨rfl, rfl⟩, manameis⟩).symm
      case isFalse user =>
        rw [if_neg fun announced => user announced.2]
        exact forgets pk.src
    · rw [hear, if_neg fun announced => sender announced.1.2]
      rcases learns.others k sender with nothing | kept
      · exact .inl nothing
      · rw [kept]
        exact forgets k
  · rw [Function.update_of_ne here]
    obtain ⟨known, forgets, lists⟩ := informed.lists i
    refine ⟨known, fun k => ?_, lists⟩
    rw [hear, if_neg fun announced => here announced.1.1]
    exact forgets k

theorem Informed.step (informed : Informed s owns net said) (unshared : Unshared owns)
    (orderly : Orderly owns net event) (call : net.step s event = some t) :
    Informed s owns t (hear said event) := by
  cases event with
  | setName i name => exact informed.setName orderly call
  | multicast i msgtag msg => exact informed.multicast orderly call
  | deliver pk env w => exact informed.deliver unshared orderly call

theorem informed_of_run {events : List (Event n)} (unshared : Unshared owns)
    (default : ∀ i, owns i (safeName (s.ip i) (s.port i)))
    (orderly : EachStep (Det (step s)) (Orderly owns) (start s) events)
    (run : Run (Det (step s)) (start s) events net) : Informed s owns net (told events) :=
  run.simulates (informed_start default) orderly
    fun _ _ _ _ informed orderly call => informed.step unshared orderly call

/-- Instance `i` finds instance `j` at `p`, by its address, by its name and by its id, and
to send to that id it connects to `j` first. -/
structure Finds (s : Site n) (net : Net n) (i j : Fin n) (p : Ptr) : Prop where
  byAddress : (net.inst i).scontacts.findIpPort (s.ip j) (s.port j) = some p
  byName : (net.inst i).scontacts.findName ((net.inst i).scontacts.info p).name = some p
  byPeer : (net.inst i).scontacts.findPeer ((net.inst i).scontacts.info p).peer = some p
  dials : ∀ env msgtag msg,
    ((net.inst i).send env msgtag ((net.inst i).scontacts.info p).peer msg).2.2.head? =
      some (.connect (s.ip j) (s.port j) env.connect)

theorem Informed.finds (informed : Informed s owns net said)
    (contact : p ∈ (net.inst i).scontacts.contacts) :
    ∃ j, j ≠ i ∧ said i j = some ((net.inst i).scontacts.info p).name ∧ Finds s net i j p := by
  obtain ⟨known, forgets, lists⟩ := informed.lists i
  have dir := lists.directory
  have shown := card_of_contact contact
  obtain ⟨j, told, here⟩ := dir.knows.cards _ _ shown
  have byAddress := (dir.of_iff contact).mp here
  obtain ⟨_, ip, port⟩ := dir.found_iff.mp byAddress
  refine ⟨j, (lists.owned j _ told).1, forgets.some told, byAddress, ?_, contact.2, ?_⟩
  · obtain ⟨peer, named, there⟩ := dir.knows.named j _ told
    obtain ⟨q, entry, rfl⟩ := Index.view_eq_some_iff.mp named
    have other := (dir.consistent.sound.names _ q entry).1
    obtain rfl := peer_injOn other contact (dir.knows.one j _ _ there here)
    exact entry
  · intro env msgtag msg
    have unconnected : ((net.inst i).scontacts.info p).socket = invalidSocket :=
      dir.knows.sockets _ _ shown
    have located : ((net.inst i).scontacts.info p).ip ≠ -1 := ip ▸ s.located j
    rcases sent : (net.inst i).send env msgtag ((net.inst i).scontacts.info p).peer msg with
      ⟨res, b, actions⟩
    rcases SBus.send_cases _ _ _ sent with ⟨missing, _⟩ | ⟨q, found, cases_⟩
    · cases missing.symm.trans contact.2
    obtain rfl := Option.some.inj (contact.2.symm.trans found)
    rcases cases_ with ⟨open_, _⟩ | ⟨_, _, _, _, rfl⟩ | ⟨_, _, _, _, rfl⟩ | ⟨_, nowhere, _⟩
    · rw [unconnected] at open_
      exact absurd open_ (by decide)
    · rw [ip, port]
      rfl
    · rw [ip, port]
      rfl
    · exact absurd nowhere located

/-- In an orderly run, whatever the order of the deliveries, each contact of an instance
is that of another one and carries the name that one was last heard to announce. It is
found by its address, by that name and by its id. -/
theorem contacts_right {events : List (Event n)} (unshared : Unshared owns)
    (default : ∀ i, owns i (safeName (s.ip i) (s.port i)))
    (orderly : EachStep (Det (step s)) (Orderly owns) (start s) events)
    (run : Run (Det (step s)) (start s) events net) (i : Fin n) :
    ∀ p ∈ (net.inst i).scontacts.contacts, ∃ j, j ≠ i ∧
      told events i j = some ((net.inst i).scontacts.info p).name ∧ Finds s net i j p :=
  fun _ contact => (informed_of_run unshared default orderly run).finds contact

instance [∀ i name, Decidable (owns i name)] (net : Net n) :
    (event : Event n) → Decidable (Orderly owns net event)
  | .setName i name => inferInstanceAs (Decidable (owns i name))
  | .multicast _ msgtag _ => inferInstanceAs (Decidable (0 < toShort msgtag))
  | .deliver _ _ _ => inferInstanceAs (Decidable (_ → _))

/-- Three instances on one machine, each with its default name and another one. -/
def threeNames (i : Fin 3) (name : CString) : Prop :=
  name = safeName 1 (BitVec.ofNat 16 (10 + i.val)) ∨ name = [97 + UInt8.ofNat i.val]

instance (i : Fin 3) (name : CString) : Decidable (threeNames i name) :=
  inferInstanceAs (Decidable (_ ∨ _))

theorem unshared_threeNames : Unshared threeNames := by
  rintro j k name (rfl | rfl) (same | same) <;> revert same <;> revert j k <;> decide

theorem threeNames_default (i : Fin 3) :
    threeNames i (safeName (threeSite.ip i) (threeSite.port i)) := by
  apply Or.inl
  rfl

/-- Two instances announce their names, and a message of the first one gets to the
third before the announcement of the second. -/
def twoNames : List (Event 3) :=
  [.setName 0 [97], .setName 1 [98],
   .deliver ⟨0, 2, ⟨sbusManameis, 1, 10, 4, [97], false⟩, false⟩
     ⟨⟨10, 0, []⟩, ⟨10, 1, []⟩, ⟨⟨10, 2, []⟩, 5, 0⟩⟩ ⟨100, 6⟩,
   .multicast 0 7 [1],
   .deliver ⟨0, 2, ⟨7, 1, 10, 4, [1], false⟩, false⟩
     ⟨⟨11, 0, []⟩, ⟨11, 1, []⟩, ⟨⟨11, 2, []⟩, 5, 0⟩⟩ ⟨100, 6⟩,
   .deliver ⟨1, 2, ⟨sbusManameis, 1, 11, 4, [98], false⟩, false⟩
     ⟨⟨12, 0, []⟩, ⟨12, 1, []⟩, ⟨⟨12, 2, []⟩, 5, 0⟩⟩ ⟨100, 6⟩]

theorem orderly_twoNames :
    EachStep (Det (step threeSite)) (Orderly threeNames) (start threeSite) twoNames := by
  decide +kernel

theorem run_twoNames : ∃ net, Run (Det (step threeSite)) (start threeSite) twoNames net := by
  have taken : (twoNames.foldlM (step threeSite) (start threeSite)).isSome := by decide +kernel
  obtain ⟨net, fold⟩ := Option.isSome_iff_exists.mp taken
  exact ⟨net, run_det_iff.mpr fold⟩

theorem contacts_right_two_names :
    ∃ net, Run (Det (step threeSite)) (start threeSite) twoNames net ∧
      ∀ p ∈ (net.inst 2).scontacts.contacts, ∃ j, j ≠ 2 ∧
        told twoNames 2 j = some ((net.inst 2).scontacts.info p).name ∧
          Finds threeSite net 2 j p := by
  obtain ⟨net, run⟩ := run_twoNames
  exact ⟨net, run, contacts_right unshared_threeNames threeNames_default orderly_twoNames run 2⟩

/-- No instance changes its name once it has set it. -/
def Once (net : Net n) : Event n → Prop
  | .setName i _ => net.named i = none
  | _ => True

instance (net : Net n) : (event : Event n) → Decidable (Once net event)
  | .setName _ _ => inferInstanceAs (Decidable (_ = none))
  | .multicast _ _ _ => .isTrue trivial
  | .deliver _ _ _ => .isTrue trivial

/-- Every announcement, on its way or heard, is of the name its sender has set. -/
structure Current (net : Net n) (said : Fin n → Fin n → Option CString) : Prop where
  flight : ∀ pk ∈ net.flight, pk.smsg.msgtag = sbusManameis → net.named pk.src = some pk.smsg.msg
  said : ∀ i j name, said i j = some name → net.named j = some name

theorem Current.setName (current : Current net said) (once : net.named i = none)
    (call : net.step s (.setName i name) = some t) : Current t said := by
  obtain rfl := Option.some.inj call
  have kept : ∀ j other, net.named j = some other →
      Function.update net.named i (some name) j = some other := by
    intro j other held
    rw [Function.update_of_ne, held]
    rintro rfl
    rw [once] at held
    cases held
  refine ⟨fun pk mem manameis => ?_,
    fun i' j other heard => kept j other (current.said i' j _ heard)⟩
  rcases List.mem_append.mp mem with old | new
  · exact kept _ _ (current.flight pk old manameis)
  · obtain ⟨j, _, rfl⟩ := List.mem_map.mp new
    exact Function.update_self _ _ _

theorem Current.step (current : Current net said) (informed : Informed s owns net said)
    (unshared : Unshared owns) (orderly : Orderly owns net event) (once : Once net event)
    (call : net.step s event = some t) : Current t (hear said event) := by
  cases event with
  | setName i name => exact current.setName once call
  | multicast i msgtag msg =>
      obtain rfl := Option.some.inj call
      refine ⟨fun pk mem manameis => ?_, current.said⟩
      rcases List.mem_append.mp mem with old | new
      · exact current.flight pk old manameis
      · obtain ⟨j, _, rfl⟩ := List.mem_map.mp new
        have positive : 0 < toShort msgtag := orderly
        have system : toShort msgtag = sbusManameis := manameis
        rw [system] at positive
        exact absurd positive (by decide)
  | deliver pk env w =>
      obtain ⟨mem, b, _, _, _, _, _, rfl⟩ := informed.deliver_eq unshared orderly call
      refine ⟨fun other left => current.flight other (List.mem_of_mem_erase left), ?_⟩
      intro i j name heard
      rw [hear] at heard
      split at heard
      case isTrue announced =>
        obtain rfl := Option.some.inj heard
        rw [announced.1.2]
        exact current.flight pk mem announced.2
      case isFalse other => exact current.said i j name heard

/-- In an orderly run in which names are set once, what an instance finds under a name is
the instance that has it. So all of them find the same one. -/
theorem names_agree {events : List (Event n)} (unshared : Unshared owns)
    (default : ∀ i, owns i (safeName (s.ip i) (s.port i)))
    (orderly : EachStep (Det (step s)) (Orderly owns) (start s) events)
    (once : EachStep (Det (step s)) Once (start s) events)
    (run : Run (Det (step s)) (start s) events net) (i : Fin n) :
    ∀ name, ∀ p ∈ (net.inst i).scontacts.findName name, ∃ j, j ≠ i ∧ (net.inst j).name = name ∧
      Finds s net i j p := by
  obtain ⟨informed, current, genuine⟩ : Informed s owns net (told events) ∧
      Current net (told events) ∧ Genuine s net := by
    refine run.simulates (R := fun net said => Informed s owns net said ∧ Current net said ∧
        Genuine s net) ⟨informed_start default, ?_, genuine_start⟩
      (eachStep_and.mpr ⟨orderly, once⟩) ?_
    · exact ⟨fun pk mem => by (cases mem), fun i j name heard => by (cases heard)⟩
    · rintro net event t said ⟨informed, current, genuine⟩ ⟨orderly, once⟩ call
      exact ⟨informed.step unshared orderly call,
        current.step informed unshared orderly once call, genuine.step call⟩
  intro name p found
  obtain ⟨known, _, lists⟩ := informed.lists i
  obtain ⟨contact, carries⟩ := lists.directory.consistent.sound.names name p found
  obtain ⟨j, other, heard, finds⟩ := informed.finds contact
  have shown : ((net.inst i).scontacts.info p).name = name := carries
  rw [shown] at heard
  exact ⟨j, other, genuine.holds j name (current.said i j name heard), finds⟩

theorem names_agree_two_names :
    ∃ net, Run (Det (step threeSite)) (start threeSite) twoNames net ∧
      ∀ name, ∀ p ∈ (net.inst 2).scontacts.findName name, ∃ j, j ≠ 2 ∧
        (net.inst j).name = name ∧ Finds threeSite net 2 j p := by
  obtain ⟨net, run⟩ := run_twoNames
  have once : EachStep (Det (step threeSite)) Once (start threeSite) twoNames := by decide +kernel
  exact ⟨net, run,
    names_agree unshared_threeNames threeNames_default orderly_twoNames once run 2⟩

/-- While there are ids, a message is processed. That sends nothing, and the id returned is
that of the contact with the address of the sender. -/
def Attributed (s : Site n) (net : Net n) : Event n → Prop
  | .deliver pk env _ =>
      pk ∈ net.flight →
        ((net.inst pk.dst).scontacts.lastPeerId ≠ intMax →
          ((net.inst pk.dst).processSMsg env pk.smsg).isSome) ∧
        ∀ id b actions, (net.inst pk.dst).processSMsg env pk.smsg = some (id, b, actions) →
          actions = [] ∧ ∃ p, b.scontacts.findIpPort (s.ip pk.src) (s.port pk.src) = some p ∧
            (b.scontacts.info p).peer = id
  | _ => True

/-- In an orderly run every message is processed while there are ids, no announcement is
answered, and every message is taken to be from the instance that sent it. -/
theorem deliveries_right {events : List (Event n)} (unshared : Unshared owns)
    (default : ∀ i, owns i (safeName (s.ip i) (s.port i)))
    (orderly : EachStep (Det (step s)) (Orderly owns) (start s) events) :
    EachStep (Det (step s)) (Attributed s) (start s) events := by
  refine .of_invariant (I := fun net => ∃ said, Informed s owns net said)
    ⟨_, informed_start default⟩ orderly ?_ ?_
  · rintro net event t ⟨said, informed⟩ orderly call
    exact ⟨_, informed.step unshared orderly call⟩
  · rintro net event ⟨said, informed⟩ orderly
    cases event with
    | setName i name => trivial
    | multicast i msgtag msg => trivial
    | deliver pk env w =>
        refine fun mem => ⟨fun more => ?_, fun id b actions call => ?_⟩
        · obtain ⟨_, _, lists⟩ := informed.lists pk.dst
          have sound := lists.directory.consistent.sound.mono fun x contact => contact.1
          obtain ⟨id, b, actions, call, _⟩ := SBus.processSMsg_result sound env pk.smsg more
          rw [call]
          rfl
        · obtain ⟨quiet, _, _, _, _, _, found⟩ := informed.hears unshared mem orderly call
          exact ⟨quiet, found⟩

theorem deliveries_right_two_names :
    EachStep (Det (step threeSite)) (Attributed threeSite) (start threeSite) twoNames :=
  deliveries_right unshared_threeNames threeNames_default orderly_twoNames

end Net

end LibSBus
