import Mathlib.Data.List.Basic
import Mathlib.Data.List.Infix
import Mathlib.Tactic.Ring

/-!
Self-delimiting frames on a byte stream, and big-endian words. A `Framing` comes
with the two facts a receiver relies on: a complete frame at the head of the
buffer is recognised whatever follows it, and a proper part of a frame is
recognised as a part. From these, a buffer that is an initial part of a sequence
of frames either holds the first of them or is reported incomplete, and taking
the first off leaves the rest of the sequence.
-/

namespace LibSBus.Lib

/-- `width` bytes of `n`, most significant first; higher digits are cut off. -/
def bigEndian : Nat → Nat → List UInt8
  | 0, _ => []
  | width + 1, n => UInt8.ofNat (n / 256 ^ width) :: bigEndian width n

def fromBigEndian (bytes : List UInt8) : Nat :=
  bytes.foldl (fun value byte => value * 256 + byte.toNat) 0

@[simp] theorem length_bigEndian (width n : Nat) : (bigEndian width n).length = width := by
  induction width with
  | zero => rfl
  | succ width ih => simp [bigEndian, ih]

theorem fromBigEndian_bigEndian (width n : Nat) :
    fromBigEndian (bigEndian width n) = n % 256 ^ width := by
  have general : ∀ width value,
      (bigEndian width n).foldl (fun value byte => value * 256 + byte.toNat) value =
        value * 256 ^ width + n % 256 ^ width := by
    intro width
    induction width with
    | zero => intro value; simp [bigEndian, Nat.mod_one]
    | succ width ih =>
        intro value
        have split : n % 256 ^ (width + 1) =
            n / 256 ^ width % 256 * 256 ^ width + n % 256 ^ width := by
          rw [Nat.pow_succ, Nat.mod_mul, Nat.mul_comm (256 ^ width), Nat.add_comm]
        rw [bigEndian, List.foldl_cons, ih, split, UInt8.toNat_ofNat', Nat.pow_succ]
        ring
  simpa [fromBigEndian] using general width 0

/-- What a receiver makes of the bytes it sees. -/
inductive Scan (μ : Type*) where
  | incomplete
  | invalid
  | frame (m : μ) (size : Nat)

structure Framing (β μ : Type*) where
  encode : μ → List β
  scan : List β → Scan μ
  scan_nil : scan [] = .incomplete
  scan_encode : ∀ m rest, scan (encode m ++ rest) = .frame m (encode m).length
  scan_part : ∀ m part, part <+: encode m → part ≠ encode m → scan part = .incomplete

namespace Framing

variable {β μ : Type*} (F : Framing β μ)

def encodeAll (ms : List μ) : List β := ms.flatMap F.encode

@[simp] theorem encodeAll_nil : F.encodeAll [] = [] := rfl

@[simp] theorem encodeAll_cons (m : μ) (ms : List μ) :
    F.encodeAll (m :: ms) = F.encode m ++ F.encodeAll ms := rfl

theorem encode_ne_nil (m : μ) : F.encode m ≠ [] := by
  intro empty
  have whole := F.scan_encode m []
  rw [empty, List.append_nil, F.scan_nil] at whole
  cases whole

/-- No frame is empty, so a stream has at least as many bytes as frames. -/
theorem length_le_encodeAll (ms : List μ) : ms.length ≤ (F.encodeAll ms).length := by
  induction ms with
  | nil => exact Nat.le_refl 0
  | cons m ms ih =>
      have first := List.length_pos_of_ne_nil (F.encode_ne_nil m)
      rw [encodeAll_cons, List.length_append, List.length_cons]
      omega

/-- A complete first frame is recognised in any buffer that starts with it. -/
theorem scan_of_prefix {m : μ} {buffer : List β} (whole : F.encode m <+: buffer) :
    F.scan buffer = .frame m (F.encode m).length := by
  obtain ⟨rest, rfl⟩ := whole
  exact F.scan_encode m rest

/-- A buffer that is an initial part of the frames of `ms` but does not hold the
first frame is incomplete. -/
theorem scan_of_not_prefix {ms : List μ} {buffer : List β}
    (part : buffer <+: F.encodeAll ms)
    (missing : ∀ m rest, ms = m :: rest → ¬ F.encode m <+: buffer) :
    F.scan buffer = .incomplete := by
  cases ms with
  | nil =>
      obtain rfl : buffer = [] := List.prefix_nil.mp part
      exact F.scan_nil
  | cons m rest =>
      have first := missing m rest rfl
      rw [encodeAll_cons] at part
      rcases List.prefix_or_prefix_of_prefix part (List.prefix_append _ _) with short | long
      · apply F.scan_part m buffer short
        rintro rfl
        exact first (List.prefix_refl _)
      · exact absurd long first

/-- After the first frame is taken off, what is in the buffer and what is still
to come are the remaining frames. -/
theorem drop_first {m : μ} {ms : List μ} {buffer wire : List β}
    (bytes : buffer ++ wire = F.encodeAll (m :: ms)) (whole : F.encode m <+: buffer) :
    buffer.drop (F.encode m).length ++ wire = F.encodeAll ms := by
  obtain ⟨rest, rfl⟩ := whole
  rw [encodeAll_cons, List.append_assoc, List.append_cancel_left_eq] at bytes
  rw [List.drop_left, bytes]

end Framing

end LibSBus.Lib
