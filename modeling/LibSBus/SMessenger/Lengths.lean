import LibSBus.SMessenger.Sends

/-!
What `send` does with a message of any length a `size_t` can hold. The length
becomes an `int` before it is compared, so that of 2^32 and more bytes only the
rest counts. Both overloads write the same buffer, and the kernel takes all of
it here.
-/

namespace LibSBus

/-- `int total2send=HDRLEN+bytes` -/
def total2send (bytes : Int) : Int := (BitVec.ofInt 32 (hdrlen + bytes)).toInt

/-- What is promised of a call by what it returns and transmits: all of the message
under its own length, or nothing. -/
def KeepsLength (msg : CString) (ret : Int) (transmitted : CString) : Prop :=
  (ret = -1 ∧ transmitted = []) ∨
  (ret = 0 ∧ (msg.length : Int) ≤ maxDatalen ∧
    total2send (toInt msg.length) = hdrlen + msg.length ∧
    transmitted.length = hdrlen + msg.length ∧
    datasize transmitted = msg.length ∧ transmitted.drop hdrlen = msg)

/-- The promise of a multicast call. -/
def SMessenger.MulticastKeeps (m : SMessenger) (msgtag : Int) (msg : CString) : Prop :=
  ∃ ret frame, m.sendMulticast msgtag msg true = some (ret, frame) ∧
    KeepsLength msg ret (frame.getD [])

/-- The promise of a unicast call. -/
def UnicastKeeps (tcpPort : Port) (msgtag : Int) (msg : CString) (accepts : Nat)
    (stream : CString) : Prop :=
  ∃ ret transmitted,
    sendUnicast tcpPort msgtag msg (some accepts) stream = some (ret, stream ++ transmitted) ∧
    KeepsLength msg ret transmitted

/-- The length is allowed, or its low 32 bits are a positive `int` that is not. -/
def LengthSafe (n : Nat) : Prop :=
  (n : Int) ≤ maxDatalen ∨ (maxDatalen < (n % 2 ^ 32 : Nat) ∧ n % 2 ^ 32 < 2 ^ 31)

instance : DecidablePred LengthSafe := fun _ => inferInstanceAs (Decidable (_ ∨ _))

/-- A message of 4 gigabytes is sent as an empty one. -/
theorem long_message_sent_empty :
    ¬ ∀ (m : SMessenger) (tcpPort : Port) (msgtag : Int) (msg : CString) (accepts : Nat)
      (stream : CString), msg.length < 2 ^ 64 → hdrlen + msg.length ≤ accepts →
      m.MulticastKeeps msgtag msg ∧ UnicastKeeps tcpPort msgtag msg accepts stream := by
  intro always
  have size : (List.replicate (2 ^ 32) (65 : UInt8)).length = 2 ^ 32 := List.length_replicate
  have kept := always
    { servsock := 3, mcsock := 4, ip := 1, port := 1, spoll := [], sock := fun _ => .closed }
    1 5 (List.replicate (2 ^ 32) 65) (hdrlen + 2 ^ 32) []
    (by rw [size]; decide) (by rw [size])
  obtain ⟨⟨ret, frame, call, promise⟩, _⟩ := kept
  have wrapped : toInt (2 ^ 32) = 0 := by decide
  simp only [SMessenger.sendMulticast, size, wrapped] at call
  obtain ⟨rfl, _⟩ := Prod.mk.inj (Option.some.inj call)
  rcases promise with ⟨failed, _⟩ | ⟨_, small, _⟩
  · exact absurd failed (by decide)
  · rw [size] at small
    exact absurd small (by decide)

theorem toInt_eq (n : Nat) :
    toInt n = if n % 2 ^ 32 < 2 ^ 31 then ((n % 2 ^ 32 : Nat) : Int)
      else ((n % 2 ^ 32 : Nat) : Int) - 2 ^ 32 := by
  rw [toInt, BitVec.toInt_eq_toNat_cond, BitVec.toNat_ofNat]
  split <;> split <;> omega

/-- The safe lengths are the ones that stay what they are and the ones that are
compared as something too big. -/
theorem lengthSafe_iff (n : Nat) :
    LengthSafe n ↔ toInt n > maxDatalen ∨ (toInt n = n ∧ (n : Int) ≤ maxDatalen) := by
  rw [LengthSafe]
  constructor
  · rintro (small | ⟨big, positive⟩)
    · exact .inr ⟨toInt_of_le small, small⟩
    · apply Or.inl
      rw [toInt_eq, if_pos positive]
      exact big
  · rintro (big | ⟨_, small⟩)
    · apply Or.inr
      rw [toInt_eq] at big
      by_cases positive : n % 2 ^ 32 < 2 ^ 31
      · rw [if_pos positive] at big
        exact ⟨big, positive⟩
      · rw [if_neg positive, maxDatalen] at big
        omega
    · exact .inl small

theorem total2send_of_small {bytes : Int} (small : 0 ≤ bytes ∧ bytes ≤ maxDatalen) :
    total2send bytes = hdrlen + bytes := by
  rw [maxDatalen] at small
  rw [total2send, hdrlen]
  apply BitVec.toInt_ofInt_eq_self <;> omega

section Offered

open Sending

variable {c : SendCall}

theorem datasize_offered (port : Port) (c : SendCall) :
    datasize (offered port c) = toInt c.msg.length := by
  have header := length_packhdr c.msgtag port (toInt c.msg.length)
  have bits : BitVec.ofInt 32 (toInt c.msg.length) = BitVec.ofNat 32 c.msg.length := by
    rw [toInt, BitVec.ofInt_toInt]
  rw [datasize, offered, List.take_left' header, unpackhdr_packhdr, bits, toInt]

/-- The buffer that is sent keeps the promise exactly if the length has stayed what
it is. -/
theorem keepsLength_offered_iff (port : Port)
    (small : 0 ≤ toInt c.msg.length ∧ toInt c.msg.length ≤ maxDatalen) :
    KeepsLength c.msg 0 (offered port c) ↔
      toInt c.msg.length = c.msg.length ∧ (c.msg.length : Int) ≤ maxDatalen := by
  constructor
  · rintro (⟨failed, _⟩ | ⟨_, fits, _, _, size, _⟩)
    · exact absurd failed (by decide)
    · rw [datasize_offered] at size
      exact ⟨size, fits⟩
  · rintro ⟨size, fits⟩
    apply Or.inr
    have all : (offered port c).length = hdrlen + c.msg.length := by
      rw [length_offered, size, Int.toNat_natCast]
    have body : (offered port c).drop hdrlen = c.msg := by
      rw [offered, List.drop_left' (length_packhdr _ _ _), size, Int.toNat_natCast,
        List.take_length]
    refine ⟨rfl, fits, ?_, all, ?_, body⟩
    · rw [total2send_of_small small, size]
    · rw [datasize_offered, size]

/-- What both overloads do: refuse the message, have no result, or transmit the
buffer. -/
def sendOutcome (port : Port) (c : SendCall) : Option (Int × CString) :=
  if toInt c.msg.length > maxDatalen then some (-1, [])
  else if toInt c.msg.length < 0 then none
  else some (0, offered port c)

theorem sendMulticast_outcome (m : SMessenger) (c : SendCall) :
    ((m.sendMulticast c.msgtag c.msg true).map fun (ret, frame) => (ret, frame.getD [])) =
      sendOutcome m.port c := by
  rw [SMessenger.sendMulticast, sendOutcome]
  by_cases big : toInt c.msg.length > maxDatalen
  · simp [big]
  · by_cases negative : toInt c.msg.length < 0
    · simp [big, negative]
    · simp [big, negative, offered, packhdr_toShort]

theorem sendUnicast_outcome (port : Port) {accepts : Nat} (stream : CString)
    (accepted : c.accepts = some accepts) (enough : hdrlen + c.msg.length ≤ accepts) :
    sendUnicast port c.msgtag c.msg c.accepts stream =
      (sendOutcome port c).map fun (ret, bytes) => (ret, stream ++ bytes) := by
  rw [sendOutcome]
  by_cases big : toInt c.msg.length > maxDatalen
  · simp [sendUnicast, big]
  · by_cases negative : toInt c.msg.length < 0
    · simp [sendUnicast, big, negative]
    · have all : ¬ accepts < (offered port c).length := by
        have bound := toInt_toNat_le c.msg.length
        rw [length_offered]
        omega
      rw [sendUnicast_eq (by omega), accepted, if_neg big, if_neg negative]
      simp [all]

theorem outcome_keeps_iff (port : Port) (c : SendCall) :
    (∃ ret bytes, sendOutcome port c = some (ret, bytes) ∧ KeepsLength c.msg ret bytes) ↔
      LengthSafe c.msg.length := by
  rw [lengthSafe_iff, sendOutcome]
  by_cases big : toInt c.msg.length > maxDatalen
  · rw [if_pos big]
    exact iff_of_true ⟨-1, [], rfl, .inl ⟨rfl, rfl⟩⟩ (.inl big)
  by_cases negative : toInt c.msg.length < 0
  · rw [if_neg big, if_pos negative]
    apply iff_of_false
    · rintro ⟨ret, bytes, done, _⟩
      cases done
    · rintro (big' | ⟨same, _⟩)
      · exact big big'
      · omega
  · have small : 0 ≤ toInt c.msg.length ∧ toInt c.msg.length ≤ maxDatalen := by omega
    rw [if_neg big, if_neg negative, ← keepsLength_offered_iff port small]
    constructor
    · rintro ⟨ret, bytes, done, kept⟩
      obtain ⟨rfl, rfl⟩ := Prod.mk.inj (Option.some.inj done)
      exact .inr kept
    · rintro (big' | kept)
      · exact absurd big' big
      · exact ⟨0, _, rfl, kept⟩

end Offered

/-- Where the kernel accepts everything, either overload keeps the promise exactly
for the safe lengths. -/
theorem keeps_length_iff (m : SMessenger) (tcpPort : Port) (msgtag : Int) (msg stream : CString)
    {accepts : Nat} (enough : hdrlen + msg.length ≤ accepts) :
    (m.MulticastKeeps msgtag msg ↔ LengthSafe msg.length) ∧
    (UnicastKeeps tcpPort msgtag msg accepts stream ↔ LengthSafe msg.length) := by
  let c : SendCall := { msgtag, msg, accepts := some accepts }
  constructor
  · rw [← outcome_keeps_iff m.port c, ← sendMulticast_outcome m c]
    constructor
    · rintro ⟨ret, frame, call, kept⟩
      exact ⟨ret, frame.getD [], by simp [c, call], kept⟩
    · rintro ⟨ret, bytes, call, kept⟩
      obtain ⟨⟨ret', frame⟩, done, same⟩ := Option.map_eq_some_iff.mp call
      obtain ⟨rfl, rfl⟩ := Prod.mk.inj same
      exact ⟨ret', frame, done, kept⟩
  · rw [← outcome_keeps_iff tcpPort c]
    have done := sendUnicast_outcome tcpPort (c := c) stream rfl enough
    constructor
    · rintro ⟨ret, bytes, call, kept⟩
      obtain ⟨⟨ret', bytes'⟩, out, same⟩ := Option.map_eq_some_iff.mp (done.symm.trans call)
      obtain ⟨rfl, joined⟩ := Prod.mk.inj same
      obtain rfl := List.append_cancel_left joined
      exact ⟨ret', bytes', out, kept⟩
    · rintro ⟨ret, bytes, out, kept⟩
      refine ⟨ret, bytes, ?_, kept⟩
      rw [done, out]
      rfl

/-- Three bytes after the one that is on the stream. -/
theorem keeps_length_iff_three_bytes :
    UnicastKeeps 9 5 [65, 66, 67] 11 [0] ↔ LengthSafe 3 :=
  (keeps_length_iff
    { servsock := 3, mcsock := 4, ip := 1, port := 9, spoll := [], sock := fun _ => .closed }
    9 5 [65, 66, 67] [0] (Nat.le_refl 11)).2

end LibSBus
