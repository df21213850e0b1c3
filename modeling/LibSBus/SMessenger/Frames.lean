import LibSBus.SMessenger

/-!
The frames `send` writes and `nextMsg` recognises. Everything `nextMsg` does is
decided by `scan` of the bytes it can see, on a stream and on a datagram alike;
the two lemmas `nextMsg_stream` and `nextMsg_dgram` say how.
-/

namespace LibSBus

open Lib

/-- A message as a header can carry it. -/
structure Frame where
  msgtag : Int
  port : Port
  data : CString
  tag_fits : -2 ^ 15 ≤ msgtag ∧ msgtag < 2 ^ 15
  data_fits : (data.length : Int) ≤ maxDatalen

namespace Frame

def encode (f : Frame) : CString := packhdr f.msgtag f.port f.data.length ++ f.data

end Frame

@[simp] theorem length_packhdr (msgtag : Int) (port : Port) (bytes : Int) :
    (packhdr msgtag port bytes).length = hdrlen := by
  simp [packhdr, hdrlen]

private theorem ofNat_toNat_mod {w m : Nat} (b : BitVec w) (width : m = 2 ^ w) :
    BitVec.ofNat w (b.toNat % m) = b := by
  rw [width, Nat.mod_eq_of_lt b.isLt]
  simp

theorem unpackhdr_packhdr (msgtag : Int) (port : Port) (bytes : Int) :
    unpackhdr (packhdr msgtag port bytes) =
      ((BitVec.ofInt 16 msgtag).toInt, port, (BitVec.ofInt 32 bytes).toInt) := by
  have code : (packhdr msgtag port bytes).take 2 =
      bigEndian 2 (BitVec.ofInt 16 msgtag).toNat := by
    rw [packhdr, List.append_assoc, List.take_left' (length_bigEndian 2 _)]
  have source : ((packhdr msgtag port bytes).drop 2).take 2 = bigEndian 2 port.toNat := by
    rw [packhdr, List.append_assoc, List.drop_left' (length_bigEndian 2 _),
      List.take_left' (length_bigEndian 2 _)]
  have length : (packhdr msgtag port bytes).drop 4 =
      bigEndian 4 (BitVec.ofInt 32 bytes).toNat := by
    rw [packhdr, List.drop_left' (by simp)]
  rw [unpackhdr, code, source, length, fromBigEndian_bigEndian, fromBigEndian_bigEndian,
    fromBigEndian_bigEndian, ofNat_toNat_mod (m := 256 ^ 2) _ rfl,
    ofNat_toNat_mod (m := 256 ^ 2) _ rfl, ofNat_toNat_mod (m := 256 ^ 4) _ rfl]

theorem ofInt_toInt_of_short {n : Int} (fits : -2 ^ 15 ≤ n ∧ n < 2 ^ 15) :
    (BitVec.ofInt 16 n).toInt = n := by
  apply BitVec.toInt_ofInt_eq_self <;> omega

theorem ofInt_toInt_of_length {n : Nat} (fits : (n : Int) ≤ maxDatalen) :
    (BitVec.ofInt 32 n).toInt = n := by
  rw [maxDatalen] at fits
  apply BitVec.toInt_ofInt_eq_self <;> omega

theorem short_bounds (b : BitVec 16) : -2 ^ 15 ≤ b.toInt ∧ b.toInt < 2 ^ 15 := by
  have low := BitVec.le_toInt b
  have high := BitVec.toInt_lt (x := b)
  omega

/-- What the bytes seen so far amount to. -/
def scan (buffer : CString) : Scan Frame :=
  if buffer.length < hdrlen then .incomplete
  else
    let head := buffer.take hdrlen
    let datasize := (unpackhdr head).2.2
    if small : 0 ≤ datasize ∧ datasize ≤ maxDatalen then
      if buffer.length < hdrlen + datasize.toNat then .incomplete
      else
        .frame
          { msgtag := (unpackhdr head).1
            port := (unpackhdr head).2.1
            data := (buffer.drop hdrlen).take datasize.toNat
            tag_fits := short_bounds _
            data_fits := by
              rw [List.length_take]
              omega }
          (hdrlen + datasize.toNat)
    else .invalid

private theorem take_hdrlen_encode (f : Frame) (rest : CString) :
    (f.encode ++ rest).take hdrlen = packhdr f.msgtag f.port f.data.length := by
  rw [Frame.encode, List.append_assoc, List.take_left' (length_packhdr _ _ _)]

@[simp] theorem Frame.length_encode (f : Frame) :
    f.encode.length = hdrlen + f.data.length := by
  simp [Frame.encode]

theorem Frame.not_short (f : Frame) (behind : CString) :
    ¬ (f.encode ++ behind).length < hdrlen := by
  rw [List.length_append, Frame.length_encode]
  omega

theorem Frame.encode_append_ne_nil (f : Frame) (behind : CString) : f.encode ++ behind ≠ [] := by
  intro empty
  apply f.not_short behind
  rw [empty]
  decide

theorem scan_encode (f : Frame) (rest : CString) :
    scan (f.encode ++ rest) = .frame f f.encode.length := by
  have tag := ofInt_toInt_of_short f.tag_fits
  have size := ofInt_toInt_of_length f.data_fits
  have head : unpackhdr ((f.encode ++ rest).take hdrlen) = (f.msgtag, f.port, ↑f.data.length) := by
    rw [take_hdrlen_encode, unpackhdr_packhdr, tag, size]
  have body : ((f.encode ++ rest).drop hdrlen).take f.data.length = f.data := by
    rw [Frame.encode, List.append_assoc, List.drop_left' (length_packhdr _ _ _), List.take_left]
  have long : ¬ (f.encode ++ rest).length < hdrlen := by
    rw [List.length_append, Frame.length_encode]
    omega
  have whole : ¬ (f.encode ++ rest).length < hdrlen + f.data.length := by
    rw [List.length_append, Frame.length_encode]
    omega
  simp only [scan, if_neg long, head, dif_pos (⟨Int.natCast_nonneg _, f.data_fits⟩ :
    (0 : Int) ≤ f.data.length ∧ (f.data.length : Int) ≤ maxDatalen), Int.toNat_natCast,
    if_neg whole, body, Frame.length_encode]

theorem scan_nil : scan [] = .incomplete := if_pos (by decide)

/-- A buffer with a complete header is judged by it. -/
theorem scan_of_header {buffer : CString} (long : hdrlen ≤ buffer.length) :
    scan buffer =
      if small : 0 ≤ (unpackhdr (buffer.take hdrlen)).2.2 ∧
          (unpackhdr (buffer.take hdrlen)).2.2 ≤ maxDatalen then
        if buffer.length < hdrlen + (unpackhdr (buffer.take hdrlen)).2.2.toNat then .incomplete
        else
          .frame
            { msgtag := (unpackhdr (buffer.take hdrlen)).1
              port := (unpackhdr (buffer.take hdrlen)).2.1
              data := (buffer.drop hdrlen).take (unpackhdr (buffer.take hdrlen)).2.2.toNat
              tag_fits := short_bounds _
              data_fits := by
                rw [List.length_take]
                omega }
            (hdrlen + (unpackhdr (buffer.take hdrlen)).2.2.toNat)
      else .invalid := if_neg (Nat.not_lt.mpr long)

private theorem take_of_prefix {first second : CString} {n : Nat} (grows : first <+: second)
    (long : n ≤ first.length) : second.take n = first.take n := by
  obtain ⟨rest, rfl⟩ := grows
  exact List.take_append_of_le_length long

theorem scan_part (f : Frame) (part : CString) (initial : part <+: f.encode)
    (proper : part ≠ f.encode) : scan part = .incomplete := by
  have short : part.length < hdrlen + f.data.length := by
    rw [← Frame.length_encode]
    exact lt_of_le_of_ne initial.length_le fun same => proper (initial.eq_of_length same)
  by_cases long : hdrlen ≤ part.length
  · have size := ofInt_toInt_of_length f.data_fits
    have head : part.take hdrlen = packhdr f.msgtag f.port f.data.length := by
      rw [← take_hdrlen_encode f [], List.append_nil, take_of_prefix initial long]
    have datasize : (unpackhdr (part.take hdrlen)).2.2 = f.data.length := by
      rw [head, unpackhdr_packhdr, size]
    rw [scan_of_header long]
    simp only [datasize, Int.toNat_natCast, if_pos short, dif_pos
      (⟨Int.natCast_nonneg _, f.data_fits⟩ :
        (0 : Int) ≤ f.data.length ∧ (f.data.length : Int) ≤ maxDatalen)]
  · exact if_pos (Nat.lt_of_not_le long)

/-- The frames as a self-delimiting format. -/
def framing : Framing UInt8 Frame where
  encode := Frame.encode
  scan := scan
  scan_nil := scan_nil
  scan_encode := scan_encode
  scan_part := scan_part

/-- The length a header announces. -/
def datasize (buffer : CString) : Int := (unpackhdr (buffer.take hdrlen)).2.2

theorem scan_invalid {buffer : CString} (long : hdrlen ≤ buffer.length)
    (bad : ¬ (0 ≤ datasize buffer ∧ datasize buffer ≤ maxDatalen)) : scan buffer = .invalid := by
  rw [scan_of_header long]
  exact dif_neg bad

theorem scan_incomplete {buffer : CString} (long : hdrlen ≤ buffer.length)
    (small : 0 ≤ datasize buffer ∧ datasize buffer ≤ maxDatalen)
    (short : buffer.length < hdrlen + (datasize buffer).toNat) : scan buffer = .incomplete := by
  rw [scan_of_header long]
  exact (dif_pos small).trans (if_pos short)

theorem scan_frame {buffer : CString} (small : 0 ≤ datasize buffer ∧ datasize buffer ≤ maxDatalen)
    (whole : hdrlen + (datasize buffer).toNat ≤ buffer.length) :
    ∃ f : Frame, scan buffer = .frame f (hdrlen + (datasize buffer).toNat) ∧
      f.msgtag = (unpackhdr (buffer.take hdrlen)).1 ∧
      f.port = (unpackhdr (buffer.take hdrlen)).2.1 ∧
      f.data = (buffer.drop hdrlen).take (datasize buffer).toNat := by
  rw [scan_of_header (by omega)]
  exact ⟨_, (dif_pos small).trans (if_neg (Nat.not_lt.mpr whole)), rfl, rfl, rfl⟩

/-- The socket has something to read, and this is the start of it. -/
def Sock.Shows (s : Sock) (bytes : CString) : Prop := ∀ n, s.recvfrom n = .bytes (bytes.take n)

/-- `nextMsg` on a socket that has something to read. With less than a header
there nothing happens; otherwise the bytes seen at the second peek decide. -/
theorem nextMsg_of_shows {s : Sock} {late later : Nat} {first second third : CString}
    (shows : s.Shows first) (shows₂ : (s.arrive late).Shows second)
    (shows₃ : ((s.arrive late).arrive later).Shows third) (grows : first <+: second)
    (grows' : second <+: third) (nonempty : first ≠ []) :
    nextMsg maxDatalen s late later =
      if first.length < hdrlen then (.pending, s)
      else
        match scan second with
        | .invalid => (.error, s)
        | .incomplete => (.pending, s.arrive late)
        | .frame f size =>
            let t := (s.arrive late).arrive later
            (.message f.msgtag (if t.source = 0 then t.getIP else t.source) f.port f.data,
              t.consume size) := by
  have positive : 0 < first.length := List.length_pos_iff.mpr nonempty
  rw [nextMsg, if_neg (by decide), shows hdrlen]
  dsimp only
  by_cases short : first.length < hdrlen
  · rw [if_pos short, if_pos]
    rw [List.length_take]
    omega
  · have long : hdrlen ≤ first.length := Nat.le_of_not_lt short
    have size : (first.take hdrlen).length = hdrlen := List.length_take_of_le long
    have head := take_of_prefix grows long
    have long₂ := long.trans grows.length_le
    rw [if_neg short, if_neg (by omega), if_neg (by rw [size]; decide), ← head, ← datasize]
    by_cases negative : datasize second < 0
    · rw [if_pos negative, scan_invalid long₂ (by omega)]
    · by_cases big : datasize second > maxDatalen
      · rw [if_neg negative, if_pos big, scan_invalid long₂ (by omega)]
      · have small : 0 ≤ datasize second ∧ datasize second ≤ maxDatalen := by omega
        rw [if_neg negative, if_neg big, shows₂]
        dsimp only
        by_cases part : second.length < hdrlen + (datasize second).toNat
        · rw [scan_incomplete long₂ small part, if_pos]
          rw [List.length_take]
          omega
        · have whole : hdrlen + (datasize second).toNat ≤ second.length := Nat.le_of_not_lt part
          have body := take_of_prefix grows' whole
          have full := List.length_take_of_le whole
          obtain ⟨f, found, tag, port, data⟩ := scan_frame small whole
          rw [found, if_neg (by omega), shows₃, body]
          dsimp only
          rw [if_neg (by omega), tag, port, data, List.drop_take, Nat.add_sub_cancel_left]

theorem shows_stream {wire buffer : CString} {eof : Bool} {remote : IP} (nonempty : buffer ≠ []) :
    (Sock.stream wire buffer eof remote).Shows buffer := by
  intro n
  cases buffer with
  | nil => exact absurd rfl nonempty
  | cons b rest => rfl

/-- `nextMsg` on a stream that has nothing to read. -/
theorem nextMsg_stream_nil {wire : CString} {eof : Bool} {remote : IP} {late later : Nat} :
    nextMsg maxDatalen (.stream wire [] eof remote) late later =
      if eof ∧ wire = [] then (.error, .stream wire [] eof remote)
      else (.pending, .stream wire [] eof remote) := by
  by_cases drained : eof ∧ wire = []
  · simp [nextMsg, Sock.recvfrom, drained, maxDatalen]
  · simp [nextMsg, Sock.recvfrom, drained, maxDatalen]

theorem nextMsg_stream {wire buffer : CString} {eof : Bool} {remote : IP} {late later : Nat}
    (nonempty : buffer ≠ []) :
    nextMsg maxDatalen (.stream wire buffer eof remote) late later =
      let s := Sock.stream wire buffer eof remote
      if buffer.length < hdrlen then (.pending, s)
      else
        match scan (buffer ++ wire.take late) with
        | .invalid => (.error, s)
        | .incomplete => (.pending, s.arrive late)
        | .frame f size =>
            (.message f.msgtag remote f.port f.data,
              ((s.arrive late).arrive later).consume size) := by
  have longer : ∀ more : CString, buffer ++ more ≠ [] := fun more empty =>
    nonempty (List.append_eq_nil_iff.mp empty).1
  have longer₂ : ∀ more more' : CString, buffer ++ more ++ more' ≠ [] := fun more more' empty =>
    longer more (List.append_eq_nil_iff.mp empty).1
  exact nextMsg_of_shows (shows_stream nonempty) (shows_stream (longer _))
    (shows_stream (longer₂ _ _)) (List.prefix_append _ _) (List.prefix_append _ _) nonempty

theorem shows_dgram {wire rest : List Datagram} {d : Datagram} :
    (Sock.dgram wire (d :: rest)).Shows d.bytes := fun _ => rfl

/-- `nextMsg` on a datagram socket is decided by the datagram at its head. -/
theorem nextMsg_dgram {wire rest : List Datagram} {d : Datagram} {late later : Nat} :
    nextMsg maxDatalen (.dgram wire (d :: rest)) late later =
      let s := Sock.dgram wire (d :: rest)
      if d.bytes = [] then (.error, s)
      else if d.bytes.length < hdrlen then (.pending, s)
      else
        match scan d.bytes with
        | .invalid => (.error, s)
        | .incomplete => (.pending, s.arrive late)
        | .frame f size =>
            (.message f.msgtag (if d.ip = 0 then -1 else d.ip) f.port f.data,
              ((s.arrive late).arrive later).consume size) := by
  by_cases empty : d.bytes = []
  · simp [nextMsg, Sock.recvfrom, empty, maxDatalen]
  · rw [nextMsg_of_shows shows_dgram shows_dgram shows_dgram (List.prefix_refl _)
      (List.prefix_refl _) empty]
    exact (if_neg empty).symm

end LibSBus
