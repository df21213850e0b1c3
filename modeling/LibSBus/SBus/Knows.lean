import LibSBus.SBus.Network
import LibSBus.SContacts.Book

/-!
A book that is right about its peers. Every card is that of an instance, shows the
name this instance is known by, and is found under that name; no instance has two
cards, and nobody is connected. The rules say what taking cards out, putting one in
and changing a name do to such a book. They speak of the book alone, so no record,
pointer or map is in sight.
-/

namespace LibSBus

variable {n : Nat} {s : Site n} {known known' : Fin n → Option CString} {b b' : AddressBook}
  {i j k : Fin n} {peer other : SBusPeer} {card : Card} {name : CString} {gone : Set SBusPeer}

/-- The card of `peer` is that of instance `j`. -/
def AddressBook.Of (b : AddressBook) (s : Site n) (j : Fin n) (peer : SBusPeer) : Prop :=
  b.At (s.ip j) (s.port j) peer

/-- The book has a card of an instance exactly when a name is known of it. -/
structure Knows (s : Site n) (known : Fin n → Option CString) (b : AddressBook) : Prop where
  cards : ∀ peer card, b.card peer = some card → ∃ j, known j = some card.name ∧ b.Of s j peer
  one : ∀ j peer peer', b.Of s j peer → b.Of s j peer' → peer = peer'
  named : ∀ j name, known j = some name → ∃ peer, b.named name = some peer ∧ b.Of s j peer
  names : ∀ name peer, b.named name = some peer → ∃ card, b.card peer = some card ∧ card.name = name
  unconnected : ∀ socket peer, b.connected socket = some peer → socket = invalidSocket
  sockets : ∀ peer card, b.card peer = some card → card.socket = invalidSocket

/-- No two instances are known by one name. -/
def Apart (known : Fin n → Option CString) : Prop :=
  ∀ j k name, known j = some name → known k = some name → j = k

/-- Of every instance the same is known as before, or nothing. -/
def Forgets (known known' : Fin n → Option CString) : Prop :=
  ∀ j, known' j = none ∨ known' j = known j

theorem Forgets.refl (known : Fin n → Option CString) : Forgets known known := fun _ => .inr rfl

theorem Forgets.some (forgets : Forgets known known') (still : known' j = some name) :
    known j = some name := by
  rcases forgets j with nothing | same
  · rw [nothing] at still
    cases still
  · rw [← same, still]

theorem Apart.forgets (apart : Apart known) (forgets : Forgets known known') : Apart known' :=
  fun j k name hj hk => apart j k name (forgets.some hj) (forgets.some hk)

theorem Apart.update (apart : Apart known) (new : ∀ k, k ≠ j → known k ≠ some name) :
    Apart (Function.update known j (some name)) := by
  intro k l other hk hl
  rw [Function.update_apply] at hk hl
  split at hk
  case isTrue here =>
    split at hl
    case isTrue there => rw [here, there]
    case isFalse elsewhere => exact absurd (hl.trans hk.symm) (new l elsewhere)
  case isFalse elsewhere =>
    split at hl
    case isTrue there => exact absurd (hk.trans hl.symm) (new k elsewhere)
    case isFalse => exact apart k l other hk hl

/-- A card is that of one instance. -/
theorem AddressBook.Of.unique (here : b.Of s j peer) (there : b.Of s k peer) : j = k := by
  obtain ⟨card, shown, ip, port⟩ := here
  obtain ⟨card', shown', ip', port'⟩ := there
  obtain rfl := Option.some.inj (shown.symm.trans shown')
  exact s.distinct j k (ip.symm.trans ip') (port.symm.trans port')

/-- The card of an instance shows the name it is known by. -/
theorem Knows.card_of (knows : Knows s known b) (here : b.Of s j peer) :
    ∃ card, b.card peer = some card ∧ known j = some card.name := by
  obtain ⟨card, shown, address⟩ := here
  obtain ⟨k, name, there⟩ := knows.cards peer card shown
  obtain rfl := AddressBook.Of.unique ⟨card, shown, address⟩ there
  exact ⟨card, shown, name⟩

theorem Knows.unheard (knows : Knows s known b) (never : known j = none) : ¬ b.Of s j peer := by
  intro here
  obtain ⟨card, _, name⟩ := knows.card_of here
  rw [never] at name
  cases name

/-- Only the cards and what is remembered matter. -/
theorem Knows.congr (knows : Knows s known b) (cards : b'.card = b.card)
    (named : b'.named = b.named) (connected : b'.connected = b.connected) :
    Knows s known b' := by
  have of : ∀ j peer, b'.Of s j peer ↔ b.Of s j peer := by
    intro j peer
    rw [AddressBook.Of, AddressBook.At, cards]
    rfl
  refine ⟨?_, ?_, ?_, ?_, ?_, ?_⟩
  · rw [cards]
    simpa only [of] using knows.cards
  · simpa only [of] using knows.one
  · rw [named]
    simpa only [of] using knows.named
  · rw [named, cards]
    exact knows.names
  · rw [connected]
    exact knows.unconnected
  · rw [cards]
    exact knows.sockets

theorem knows_empty : Knows s (fun _ => none) AddressBook.empty where
  cards peer card shown := by cases shown
  one j peer peer' here := by
    obtain ⟨card, shown, _⟩ := here
    cases shown
  named j name told := by cases told
  names name peer shown := by cases shown
  unconnected socket peer shown := by cases shown
  sockets peer card shown := by cases shown

theorem drop_card_eq_some :
    (b.drop gone).card peer = some card ↔ peer ∉ gone ∧ b.card peer = some card := by
  simp only [AddressBook.drop]
  split
  case isTrue taken => simp [taken]
  case isFalse kept => simp [kept]

theorem of_drop_iff : (b.drop gone).Of s j peer ↔ peer ∉ gone ∧ b.Of s j peer := by
  simp only [AddressBook.Of, AddressBook.At, drop_card_eq_some, and_assoc, exists_and_left]

theorem drop_named_eq_some :
    (b.drop gone).named name = some peer ↔
      ¬ b.Takes Card.name gone name ∧ b.named name = some peer := by
  simp only [AddressBook.drop]
  split
  case isTrue taken => simp [taken]
  case isFalse kept => simp [kept]

theorem drop_connected {socket : SocketType}
    (shown : (b.drop gone).connected socket = some peer) : b.connected socket = some peer := by
  simp only [AddressBook.drop] at shown
  split at shown
  case isTrue taken => cases shown
  case isFalse kept => exact shown

open Classical in
/-- What is still known when cards are taken out. -/
noncomputable def AddressBook.left (b : AddressBook) (s : Site n) (known : Fin n → Option CString)
    (gone : Set SBusPeer) (j : Fin n) : Option CString :=
  if ∃ peer ∈ gone, b.Of s j peer then none else known j

theorem left_eq_some_iff : b.left s known gone j = some name ↔
    (¬ ∃ peer ∈ gone, b.Of s j peer) ∧ known j = some name :=
  Option.ite_none_left_eq_some

theorem forgets_left : Forgets known (b.left s known gone) := by
  intro j
  unfold AddressBook.left
  split
  case isTrue taken => exact .inl rfl
  case isFalse stays => exact .inr rfl

theorem Knows.drop (knows : Knows s known b) (apart : Apart known) (gone : Set SBusPeer) :
    Knows s (b.left s known gone) (b.drop gone) := by
  refine ⟨?_, ?_, ?_, ?_, ?_, ?_⟩
  · intro peer card shown
    obtain ⟨stays, shown⟩ := drop_card_eq_some.mp shown
    obtain ⟨j, name, here⟩ := knows.cards peer card shown
    refine ⟨j, left_eq_some_iff.mpr ⟨?_, name⟩, of_drop_iff.mpr ⟨stays, here⟩⟩
    rintro ⟨other, taken, there⟩
    exact stays (knows.one j peer other here there ▸ taken)
  · exact fun k p q hp hq => knows.one k p q (of_drop_iff.mp hp).2 (of_drop_iff.mp hq).2
  · intro j name told
    obtain ⟨stays, told⟩ := left_eq_some_iff.mp told
    obtain ⟨peer, named, here⟩ := knows.named j name told
    refine ⟨peer, drop_named_eq_some.mpr ⟨?_, named⟩, of_drop_iff.mpr ⟨?_, here⟩⟩
    · rintro ⟨other, taken, card, shown, carries⟩
      obtain ⟨k, name', there⟩ := knows.cards other card shown
      rw [carries] at name'
      obtain rfl := apart j k name told name'
      exact stays ⟨other, taken, there⟩
    · exact fun taken => stays ⟨peer, taken, here⟩
  · intro name peer named
    obtain ⟨kept, named⟩ := drop_named_eq_some.mp named
    obtain ⟨card, shown, carries⟩ := knows.names name peer named
    refine ⟨card, drop_card_eq_some.mpr ⟨fun taken => ?_, shown⟩, carries⟩
    exact kept ⟨peer, taken, card, shown, carries⟩
  · exact fun socket peer shown => knows.unconnected socket peer (drop_connected shown)
  · exact fun peer card shown => knows.sockets peer card (drop_card_eq_some.mp shown).2

theorem enter_card_eq_some {new : Card} :
    (b.enter peer new).card other = some card ↔
      (other = peer ∧ new = card) ∨
      (other ≠ peer ∧ ∃ old, b.card other = some old ∧
        { old with lastActivity := new.lastActivity } = card) := by
  simp only [AddressBook.enter]
  split
  case isTrue same => simp [same]
  case isFalse different => simp [different]

theorem of_enter_of_ne {new : Card} (different : other ≠ peer) :
    (b.enter peer new).Of s j other ↔ b.Of s j other := by
  simp only [AddressBook.Of, AddressBook.At, enter_card_eq_some, different, false_and, false_or,
    ne_eq, not_false_eq_true, true_and]
  constructor
  · rintro ⟨_, ⟨old, shown, rfl⟩, address⟩
    exact ⟨old, shown, address⟩
  · rintro ⟨old, shown, address⟩
    exact ⟨_, ⟨old, shown, rfl⟩, address⟩

theorem of_enter_self {new : Card} : (b.enter peer new).Of s j peer ↔
    new.ip = s.ip j ∧ new.port = s.port j := by
  simp [AddressBook.Of, AddressBook.At, AddressBook.enter]

/-- An instance that is not known gets a card, with a name that nobody is known by. -/
theorem Knows.enter (card : Card) (knows : Knows s known b) (fresh : b.card peer = none)
    (never : known j = none) (new : ∀ k, known k ≠ some card.name)
    (address : card.ip = s.ip j ∧ card.port = s.port j)
    (unconnected : card.socket = invalidSocket) :
    Knows s (Function.update known j (some card.name)) (b.enter peer card) := by
  have here : (b.enter peer card).Of s j peer := of_enter_self.mpr address
  have other_of : ∀ {k p}, b.Of s k p → p ≠ peer := by
    rintro k _ ⟨old, shown, _⟩ rfl
    rw [fresh] at shown
    cases shown
  have old_ne : ∀ {k name}, known k = some name → k ≠ j := by
    rintro k name told rfl
    rw [never] at told
    cases told
  refine ⟨?_, ?_, ?_, ?_, ?_, ?_⟩
  · intro other card' shown
    rcases enter_card_eq_some.mp shown with ⟨rfl, rfl⟩ | ⟨different, old, was, rfl⟩
    · exact ⟨j, Function.update_self _ _ _, here⟩
    · obtain ⟨k, told, there⟩ := knows.cards other old was
      refine ⟨k, ?_, (of_enter_of_ne different).mpr there⟩
      rwa [Function.update_of_ne (old_ne told)]
  · intro k p q hp hq
    by_cases first : p = peer
    · by_cases second : q = peer
      · exact first.trans second.symm
      · subst first
        obtain rfl := hp.unique here
        exact absurd ((of_enter_of_ne second).mp hq) (knows.unheard never)
    · by_cases second : q = peer
      · subst second
        obtain rfl := hq.unique here
        exact absurd ((of_enter_of_ne first).mp hp) (knows.unheard never)
      · exact knows.one k p q ((of_enter_of_ne first).mp hp) ((of_enter_of_ne second).mp hq)
  · intro k name told
    by_cases same : k = j
    · subst same
      rw [Function.update_self] at told
      obtain rfl := Option.some.inj told
      exact ⟨peer, Function.update_self _ _ _, here⟩
    · rw [Function.update_of_ne same] at told
      obtain ⟨other, named, there⟩ := knows.named k name told
      refine ⟨other, ?_, (of_enter_of_ne (other_of there)).mpr there⟩
      have different : name ≠ card.name := by
        rintro rfl
        exact new k told
      exact (Function.update_of_ne different _ _).trans named
  · intro name other named
    by_cases own : name = card.name
    · subst own
      have same : some peer = some other := by
        rw [← named]
        exact (Function.update_self card.name (some peer) b.named).symm
      obtain rfl := Option.some.inj same
      exact ⟨card, enter_card_eq_some.mpr (.inl ⟨rfl, rfl⟩), rfl⟩
    · have old : b.named name = some other := (Function.update_of_ne own _ _).symm.trans named
      obtain ⟨card', shown, carries⟩ := knows.names name other old
      have different : other ≠ peer := by
        rintro rfl
        rw [fresh] at shown
        cases shown
      exact ⟨_, enter_card_eq_some.mpr (.inr ⟨different, card', shown, rfl⟩), carries⟩
  · intro socket other shown
    by_cases own : socket = card.socket
    · exact own.trans unconnected
    · exact knows.unconnected socket other ((Function.update_of_ne own _ _).symm.trans shown)
  · intro other card' shown
    rcases enter_card_eq_some.mp shown with ⟨_, rfl⟩ | ⟨_, old, was, rfl⟩
    · exact unconnected
    · exact knows.sockets other old was

/-- A sweep may make the book forget instances, and does nothing else to it. -/
theorem Knows.doCleanUp (knows : Knows s known b) (apart : Apart known) (now : Int) :
    ∃ known', Forgets known known' ∧ Knows s known' (b.doCleanUp now) := by
  unfold AddressBook.doCleanUp
  split
  case isTrue due =>
    exact ⟨_, forgets_left, (knows.drop apart (b.idle now)).congr rfl rfl rfl⟩
  case isFalse early => exact ⟨known, .refl known, knows⟩

/-- The card of an instance is taken out, and one with a name that nobody else is
known by put in. -/
theorem Knows.rename (card : Card) (knows : Knows s known b) (apart : Apart known)
    (here : b.Of s j peer)
    (new : ∀ k, k ≠ j → known k ≠ some card.name)
    (address : card.ip = s.ip j ∧ card.port = s.port j)
    (unconnected : card.socket = invalidSocket) :
    Knows s (Function.update known j (some card.name)) ((b.drop {peer}).enter peer card) := by
  have fresh : (b.drop {peer}).card peer = none := if_pos rfl
  have never : b.left s known {peer} j = none := if_pos ⟨peer, rfl, here⟩
  have kept : ∀ k, k ≠ j → b.left s known {peer} k = known k := by
    intro k different
    apply if_neg
    rintro ⟨other, rfl, there⟩
    exact different (there.unique here)
  have others : ∀ k, b.left s known {peer} k ≠ some card.name := by
    intro k told
    by_cases own : k = j
    · rw [own, never] at told
      cases told
    · exact new k own (kept k own ▸ told)
  have same : Function.update (b.left s known {peer}) j (some card.name) =
      Function.update known j (some card.name) := by
    funext k
    by_cases own : k = j
    · rw [own, Function.update_self, Function.update_self]
    · rw [Function.update_of_ne own, Function.update_of_ne own, kept k own]
  rw [← same]
  exact (knows.drop apart {peer}).enter card fresh never others address unconnected

theorem touch_card_eq_some {now : Int} :
    (b.touch now peer).card other = some card ↔
      ∃ old, b.card other = some old ∧
        (if other = peer then { old with lastActivity := now } else old) = card := by
  simp only [AddressBook.touch]
  split
  case isTrue same => simp
  case isFalse different => simp

theorem of_touch_iff {now : Int} : (b.touch now peer).Of s j other ↔ b.Of s j other := by
  simp only [AddressBook.Of, AddressBook.At, touch_card_eq_some]
  constructor
  · rintro ⟨_, ⟨old, shown, rfl⟩, address⟩
    refine ⟨old, shown, ?_⟩
    split at address <;> exact address
  · rintro ⟨old, shown, address⟩
    refine ⟨_, ⟨old, shown, rfl⟩, ?_⟩
    split <;> exact address

/-- A stamp does not show. -/
theorem Knows.touch (knows : Knows s known b) (now : Int) (peer : SBusPeer) :
    Knows s known (b.touch now peer) := by
  have name_eq : ∀ {other : SBusPeer} {old : Card},
      (if other = peer then { old with lastActivity := now } else old).name = old.name := by
    intro other old
    split <;> rfl
  refine ⟨?_, ?_, ?_, ?_, knows.unconnected, ?_⟩
  · intro other card shown
    obtain ⟨old, was, rfl⟩ := touch_card_eq_some.mp shown
    obtain ⟨j, told, there⟩ := knows.cards other old was
    exact ⟨j, by rw [name_eq, told], of_touch_iff.mpr there⟩
  · simpa only [of_touch_iff] using knows.one
  · intro j name told
    obtain ⟨other, named, there⟩ := knows.named j name told
    exact ⟨other, named, of_touch_iff.mpr there⟩
  · intro name other named
    obtain ⟨old, was, carries⟩ := knows.names name other named
    exact ⟨_, touch_card_eq_some.mpr ⟨old, was, rfl⟩, by rw [name_eq, carries]⟩
  · intro other card shown
    obtain ⟨old, was, rfl⟩ := touch_card_eq_some.mp shown
    rw [← knows.sockets other old was]
    split <;> rfl

end LibSBus
