import LibSBus.SMessenger.Frames

/-!
`nextMsg` on whatever bytes a stream has received, with nothing arriving during
the call. It makes three receive calls and has eight ways out, but only three
things can happen: the frame in front is taken off, the connection is given up,
or nothing changes. Where no more input can come, the last one is final.
-/

namespace LibSBus

open Lib

namespace Next

/-- What `nextMsg` returns. -/
def result : Next → Int
  | .error => -1
  | .pending => 0
  | .message _ _ _ data => data.length + hdrlen

/-- What it leaves in `*len`. -/
def len (capacity : Int) : Next → Int
  | .error => capacity
  | .pending => 0
  | .message _ _ _ data => data.length

/-- The bytes it writes to `data`. -/
def written : Next → CString
  | .message _ _ _ data => data
  | _ => []

end Next

/-- The queue starts with a complete frame that announces from 0 to `len` bytes of
data. -/
def Framed (len : Int) (queue : CString) : Prop :=
  hdrlen ≤ queue.length ∧ 0 ≤ datasize queue ∧ datasize queue ≤ len ∧
    hdrlen + datasize queue ≤ queue.length

/-- The queue starts with a complete header, and no message of up to `len` bytes has
the length it announces. -/
def Refused (len : Int) (queue : CString) : Prop :=
  hdrlen ≤ queue.length ∧ (datasize queue < 0 ∨ len < datasize queue)

instance (len : Int) : DecidablePred (Framed len) := fun _ =>
  inferInstanceAs (Decidable (_ ∧ _ ∧ _ ∧ _))

instance (len : Int) : DecidablePred (Refused len) := fun _ =>
  inferInstanceAs (Decidable (_ ∧ _))

/-- The length is the signed big-endian word in the last four bytes of the header. -/
theorem datasize_eq (queue : CString) :
    datasize queue = (BitVec.ofNat 32 (fromBigEndian ((queue.drop 4).take 4))).toInt := by
  have last : (queue.take hdrlen).drop 4 = (queue.drop 4).take 4 := List.drop_take
  rw [datasize, unpackhdr, last]

/-- The frame in front of the queue. -/
def frontMsg (remote : IP) (queue : CString) : Next :=
  .message (unpackhdr (queue.take hdrlen)).1 remote (unpackhdr (queue.take hdrlen)).2.1
    ((queue.drop hdrlen).take (datasize queue).toNat)

variable {len : Int} {wire queue : CString} {eof : Bool} {remote : IP}

theorem Framed.not_refused (framed : Framed len queue) : ¬ Refused len queue := by
  rintro ⟨_, bad⟩
  obtain ⟨_, low, high, _⟩ := framed
  omega

private theorem arrive_nothing : (Sock.stream wire queue eof remote).arrive 0 =
    .stream wire queue eof remote := by simp [Sock.arrive]

/-- The peek finds less than a header. -/
theorem nextMsg_short (positive : 0 < len) (nonempty : queue ≠ [])
    (short : queue.length < hdrlen) :
    nextMsg len (.stream wire queue eof remote) 0 0 =
      (.pending, .stream wire queue eof remote) := by
  have shows : (Sock.stream wire queue eof remote).Shows queue := shows_stream nonempty
  have some_ : 0 < queue.length := List.length_pos_iff.mpr nonempty
  rw [nextMsg, if_neg (Int.not_le.mpr positive), shows hdrlen]
  dsimp only
  rw [arrive_nothing, if_pos]
  rw [List.length_take]
  omega

/-- The peek finds a header: its length is refused, the frame is there, or some of it
is missing. -/
theorem nextMsg_header (positive : 0 < len) (long : hdrlen ≤ queue.length) :
    nextMsg len (.stream wire queue eof remote) 0 0 =
      if datasize queue < 0 ∨ len < datasize queue then (.error, .stream wire queue eof remote)
      else if hdrlen + (datasize queue).toNat ≤ queue.length then
        (frontMsg remote queue,
          .stream wire (queue.drop (hdrlen + (datasize queue).toNat)) eof remote)
      else (.pending, .stream wire queue eof remote) := by
  have some_ : 0 < hdrlen := by decide
  have nonempty : queue ≠ [] := List.length_pos_iff.mp (by omega)
  have shows : (Sock.stream wire queue eof remote).Shows queue := shows_stream nonempty
  have header : (queue.take hdrlen).length = hdrlen := List.length_take_of_le long
  rw [nextMsg, if_neg (Int.not_le.mpr positive), shows hdrlen]
  dsimp only
  rw [arrive_nothing, header, if_neg (by omega), if_neg (by decide), ← datasize]
  by_cases negative : datasize queue < 0
  · rw [if_pos negative, if_pos (.inl negative)]
  by_cases big : len < datasize queue
  · rw [if_neg negative, if_pos big, if_pos (.inr big)]
  have allowed : ¬ (datasize queue < 0 ∨ len < datasize queue) := not_or.mpr ⟨negative, big⟩
  rw [if_neg negative, if_neg big, if_neg allowed, shows (hdrlen + (datasize queue).toNat)]
  dsimp only
  by_cases whole : hdrlen + (datasize queue).toNat ≤ queue.length
  · have full := List.length_take_of_le whole
    rw [if_neg (by omega), arrive_nothing, shows (hdrlen + (datasize queue).toNat),
      if_pos whole]
    dsimp only
    rw [if_neg (by omega), List.drop_take, Nat.add_sub_cancel_left]
    rfl
  · rw [if_pos, if_neg whole]
    rw [List.length_take]
    omega

/-- All of it at once: what is in front of the queue decides. -/
theorem nextMsg_queue (positive : 0 < len) :
    nextMsg len (.stream wire queue eof remote) 0 0 =
      if Framed len queue then
        (frontMsg remote queue,
          .stream wire (queue.drop (hdrlen + (datasize queue).toNat)) eof remote)
      else if (eof = true ∧ wire = [] ∧ queue = []) ∨ Refused len queue then
        (.error, .stream wire queue eof remote)
      else (.pending, .stream wire queue eof remote) := by
  by_cases empty : queue = []
  · subst empty
    have unframed : ¬ Framed len [] := fun framed => absurd framed.1 (by decide)
    have unrefused : ¬ Refused len [] := fun refused => absurd refused.1 (by decide)
    by_cases closed : eof = true ∧ wire = []
    · simp [nextMsg, Sock.recvfrom, closed, unframed, Int.not_le.mpr positive]
    · simp [nextMsg, Sock.recvfrom, closed, unframed, unrefused, Int.not_le.mpr positive]
  by_cases short : queue.length < hdrlen
  · have unframed : ¬ Framed len queue := fun framed => absurd framed.1 (Nat.not_le.mpr short)
    have unrefused : ¬ Refused len queue := fun refused =>
      absurd refused.1 (Nat.not_le.mpr short)
    simp [nextMsg_short positive empty short, unframed, unrefused, empty]
  have long : hdrlen ≤ queue.length := Nat.le_of_not_lt short
  rw [nextMsg_header positive long]
  by_cases refused : datasize queue < 0 ∨ len < datasize queue
  · have refused' : Refused len queue := ⟨long, refused⟩
    have unframed : ¬ Framed len queue := fun framed => framed.not_refused refused'
    simp [refused, refused', unframed]
  · have unrefused : ¬ Refused len queue := fun bad => refused bad.2
    have framed : Framed len queue ↔ hdrlen + (datasize queue).toNat ≤ queue.length := by
      unfold Framed
      omega
    simp only [if_neg refused, framed]
    simp [unrefused, empty]

theorem length_frontMsg (framed : Framed len queue) :
    (((queue.drop hdrlen).take (datasize queue).toNat).length : Int) = datasize queue := by
  obtain ⟨long, low, _, whole⟩ := framed
  rw [List.length_take, List.length_drop]
  omega

/-- On every content of the queue: a message comes out exactly if a complete frame
of an allowed length is in front, and then that frame is taken off; otherwise
nothing is, and it is an error exactly if the peer has closed and nothing is
left or the header announces a length that is not allowed. At most `len` bytes
are written. -/
theorem nextMsg_any_queue (wire queue : CString) (eof : Bool) (remote : IP)
    (positive : 0 < len) :
    let after := nextMsg len (.stream wire queue eof remote) 0 0
    (0 < after.1.result ↔ Framed len queue) ∧
    (Framed len queue → after.1 = frontMsg remote queue ∧
      after.1.result = hdrlen + datasize queue ∧ after.1.len len = datasize queue ∧
      after.2 = .stream wire (queue.drop (hdrlen + (datasize queue).toNat)) eof remote) ∧
    (¬ Framed len queue → after.2 = .stream wire queue eof remote ∧
      after.1.result =
        if (eof = true ∧ wire = [] ∧ queue = []) ∨ Refused len queue then -1 else 0) ∧
    after.1.written.length ≤ len := by
  intro after
  have parts : after = nextMsg len (.stream wire queue eof remote) 0 0 := rfl
  rw [nextMsg_queue positive] at parts
  by_cases framed : Framed len queue
  · have length := length_frontMsg framed
    have result : (frontMsg remote queue).result = datasize queue + hdrlen := by
      rw [frontMsg, Next.result, length]
    rw [if_pos framed] at parts
    obtain ⟨_, low, high, _⟩ := id framed
    rw [parts]
    refine ⟨iff_of_true ?_ framed, fun _ => ⟨rfl, ?_, length, rfl⟩,
      fun unframed => absurd framed unframed, ?_⟩
    · show 0 < (frontMsg remote queue).result
      rw [result]
      have : 0 < hdrlen := by decide
      omega
    · rw [result, Int.add_comm]
    · rw [frontMsg, Next.written, length]
      exact high
  · rw [if_neg framed] at parts
    have none : ([] : CString).length ≤ len := Int.le_of_lt positive
    split at parts
    case isTrue refused =>
      rw [parts, if_pos refused]
      exact ⟨iff_of_false (by simp [Next.result]) framed, fun whole => absurd whole framed,
        fun _ => ⟨rfl, rfl⟩, none⟩
    case isFalse fine =>
      rw [parts, if_neg fine]
      exact ⟨iff_of_false (by simp [Next.result]) framed, fun whole => absurd whole framed,
        fun _ => ⟨rfl, rfl⟩, none⟩

/-- A frame of two bytes with the start of another one behind it. -/
theorem nextMsg_any_queue_two_bytes :
    0 < (nextMsg 2 (.stream [] [0, 7, 0, 9, 0, 0, 0, 2, 65, 66, 0] false 5) 0 0).1.result :=
  (nextMsg_any_queue [] [0, 7, 0, 9, 0, 0, 0, 2, 65, 66, 0] false 5 (by decide)).1.mpr
    (by decide)

/-- Nothing more can come: the peer has closed and all it sent is there, or what is
there fills the receive buffer of the kernel. -/
def AtEnd (capacity : Nat) (wire queue : CString) (eof : Bool) : Prop :=
  (eof = true ∧ wire = []) ∨ (hdrlen ≤ capacity ∧ queue.length = capacity)

instance (capacity : Nat) (wire queue : CString) (eof : Bool) :
    Decidable (AtEnd capacity wire queue eof) := inferInstanceAs (Decidable (_ ∨ _))

/-- The peer closes after the first byte of a header. -/
theorem stuck_at_end :
    ¬ ∀ len capacity wire queue eof remote, 0 < len → AtEnd capacity wire queue eof →
      (nextMsg len (.stream wire queue eof remote) 0 0).1.result ≠ 0 := by
  intro always
  exact always maxDatalen 0 [] [0] true 5 (by decide) (.inl ⟨rfl, rfl⟩) (by decide)

/-- When nothing more can come, `nextMsg` decides exactly if nothing is left, or a
complete header is there and the length it announces is not allowed or all
there. -/
theorem nextMsg_decides_iff (capacity : Nat) (positive : 0 < len)
    (atEnd : AtEnd capacity wire queue eof) (remote : IP) :
    (nextMsg len (.stream wire queue eof remote) 0 0).1.result ≠ 0 ↔
      queue = [] ∨ (hdrlen ≤ queue.length ∧
        (datasize queue < 0 ∨ len < datasize queue ∨
          hdrlen + datasize queue ≤ queue.length)) := by
  obtain ⟨message, framed, unframed, _⟩ := nextMsg_any_queue wire queue eof remote positive
  have closed : queue = [] → eof = true ∧ wire = [] := by
    rintro rfl
    rcases atEnd with closed | ⟨large, full⟩
    · exact closed
    · rw [← full] at large
      exact absurd large (by decide)
  by_cases whole : Framed len queue
  · have result := message.mpr whole
    obtain ⟨long, _, _, all⟩ := whole
    exact iff_of_true (Int.ne_of_gt result) (.inr ⟨long, .inr (.inr all)⟩)
  · have result := (unframed whole).2
    rw [result]
    split
    case isTrue given_up =>
      refine iff_of_true (by decide) ?_
      rcases given_up with ⟨_, _, empty⟩ | ⟨long, bad⟩
      · exact .inl empty
      · exact .inr ⟨long, bad.imp_right .inl⟩
    case isFalse pending =>
      refine iff_of_false (fun h => h rfl) ?_
      rintro (empty | ⟨long, all⟩)
      · obtain ⟨ended, drained⟩ := closed empty
        exact pending (.inl ⟨ended, drained, empty⟩)
      · have fine : ¬ Refused len queue := fun refused => pending (.inr refused)
        rw [Refused, not_and] at fine
        have allowed := fine long
        exact whole ⟨long, by omega, by omega, by omega⟩

/-- The peer closes after a whole message. -/
theorem nextMsg_decides_closed :
    (nextMsg maxDatalen (.stream [] [0, 7, 0, 9, 0, 0, 0, 1, 65] true 5) 0 0).1.result ≠ 0 :=
  (nextMsg_decides_iff 0 (by decide) (.inl ⟨rfl, rfl⟩) 5).mpr
    (.inr ⟨by decide, .inr (.inr (by decide))⟩)

end LibSBus
