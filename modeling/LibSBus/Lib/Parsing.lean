import LibSBus.Lib.Frames

/-!
Reading a stream of any bytes. A framing is `Exact` if it takes nothing for a frame
but what the frame is written as. Then the bytes of a stream determine the frames in
front of it: whatever is taken off, one frame after the other, is the start of what
`parse` finds in the whole, and the rest of that is found in what is left.
-/

namespace LibSBus.Lib

theorem foldl_digits (bytes : List UInt8) (value : Nat) :
    bytes.foldl (fun value byte => value * 256 + byte.toNat) value =
      fromBigEndian bytes + value * 256 ^ bytes.length := by
  induction bytes generalizing value with
  | nil => simp [fromBigEndian]
  | cons byte bytes ih =>
      have first : fromBigEndian (byte :: bytes) =
          bytes.foldl (fun value byte => value * 256 + byte.toNat) (0 * 256 + byte.toNat) := rfl
      rw [List.foldl_cons, ih, first, ih, List.length_cons, Nat.pow_succ]
      ring

theorem fromBigEndian_cons (byte : UInt8) (bytes : List UInt8) :
    fromBigEndian (byte :: bytes) = fromBigEndian bytes + byte.toNat * 256 ^ bytes.length := by
  rw [← foldl_digits]
  simp [fromBigEndian]

theorem fromBigEndian_lt (bytes : List UInt8) : fromBigEndian bytes < 256 ^ bytes.length := by
  induction bytes with
  | nil => simp [fromBigEndian]
  | cons byte bytes ih =>
      have digit : byte.toNat * 256 ^ bytes.length ≤ 255 * 256 ^ bytes.length :=
        Nat.mul_le_mul_right _ (Nat.le_of_lt_succ byte.toNat_lt)
      rw [fromBigEndian_cons, List.length_cons, Nat.pow_succ]
      omega

/-- Only the last digits are written. -/
theorem bigEndian_add_mul (width n k : Nat) :
    bigEndian width (n + k * 256 ^ width) = bigEndian width n := by
  induction width generalizing k with
  | zero => rfl
  | succ width ih =>
      have regroup : n + k * 256 ^ (width + 1) = n + k * 256 * 256 ^ width := by
        rw [Nat.pow_succ]
        ring
      rw [bigEndian, bigEndian, regroup, ih, Nat.add_mul_div_right _ _ (Nat.pow_pos (by decide))]
      congr 1
      apply UInt8.toNat_inj.mp
      simp [UInt8.toNat_ofNat']

/-- Bytes are the digits of the number they are read as. -/
theorem bigEndian_fromBigEndian (bytes : List UInt8) :
    bigEndian bytes.length (fromBigEndian bytes) = bytes := by
  induction bytes with
  | nil => rfl
  | cons byte bytes ih =>
      have rest := Nat.div_eq_of_lt (fromBigEndian_lt bytes)
      rw [List.length_cons, bigEndian, fromBigEndian_cons, bigEndian_add_mul, ih,
        Nat.add_mul_div_right _ _ (Nat.pow_pos (by decide)), rest, Nat.zero_add]
      simp

namespace Framing

variable {β μ : Type*} {F : Framing β μ}

@[simp] theorem encodeAll_append (first second : List μ) :
    F.encodeAll (first ++ second) = F.encodeAll first ++ F.encodeAll second :=
  List.flatMap_append

/-- What is taken for a frame is written as it. -/
def Exact (F : Framing β μ) : Prop :=
  ∀ buffer m size, F.scan buffer = .frame m size → F.encode m <+: buffer

/-- Up to `n` frames from the front of a stream. -/
def parseUpTo (F : Framing β μ) : Nat → List β → List μ
  | 0, _ => []
  | n + 1, bytes =>
      match F.scan bytes with
      | .frame m size => m :: parseUpTo F n (bytes.drop size)
      | _ => []

/-- All frames in front of a stream. -/
def parse (F : Framing β μ) (bytes : List β) : List μ := F.parseUpTo bytes.length bytes

theorem parseUpTo_encode_append (n : Nat) (m : μ) (rest : List β) :
    F.parseUpTo (n + 1) (F.encode m ++ rest) = m :: F.parseUpTo n rest := by
  rw [parseUpTo, F.scan_encode]
  dsimp only
  rw [List.drop_left]

/-- More frames than there are bytes need not be allowed. -/
theorem parseUpTo_eq_parse (exact : F.Exact) {n : Nat} {bytes : List β}
    (enough : bytes.length ≤ n) : F.parseUpTo n bytes = F.parse bytes := by
  have general : ∀ n k bytes, bytes.length ≤ n → bytes.length ≤ k →
      F.parseUpTo n bytes = F.parseUpTo k bytes := by
    intro n
    induction n with
    | zero =>
        intro k bytes none _
        obtain rfl := List.length_eq_zero_iff.mp (Nat.le_zero.mp none)
        cases k <;> simp [parseUpTo, F.scan_nil]
    | succ n ih =>
        intro k bytes fits fits'
        cases k with
        | zero =>
            obtain rfl := List.length_eq_zero_iff.mp (Nat.le_zero.mp fits')
            simp [parseUpTo, F.scan_nil]
        | succ k =>
            rw [parseUpTo, parseUpTo]
            split
            case h_1 m size found =>
              obtain ⟨rest, rfl⟩ := exact bytes m size found
              have some_ := List.length_pos_of_ne_nil (F.encode_ne_nil m)
              rw [F.scan_encode] at found
              obtain ⟨_, rfl⟩ := Scan.frame.inj found
              rw [List.length_append] at fits fits'
              rw [List.drop_left, ih k rest (by omega) (by omega)]
            case h_2 => rfl
  exact general n bytes.length bytes enough le_rfl

/-- Frames that are taken off the front of a stream are the first ones of it, and the
others are left. -/
theorem parse_encodeAll_append (exact : F.Exact) (taken : List μ) (rest : List β) :
    F.parse (F.encodeAll taken ++ rest) = taken ++ F.parse rest := by
  induction taken with
  | nil => rfl
  | cons m taken ih =>
      have some_ := List.length_pos_of_ne_nil (F.encode_ne_nil m)
      obtain ⟨k, length⟩ : ∃ k, (F.encode m ++ (F.encodeAll taken ++ rest)).length = k + 1 :=
        Nat.exists_eq_add_one.mpr (by rw [List.length_append]; omega)
      have enough : (F.encodeAll taken ++ rest).length ≤ k := by
        rw [List.length_append] at length
        omega
      rw [encodeAll_cons, List.append_assoc, parse, length, parseUpTo_encode_append,
        parseUpTo_eq_parse exact enough, ih, List.cons_append]

theorem parse_encode_append (exact : F.Exact) (m : μ) (rest : List β) :
    F.parse (F.encode m ++ rest) = m :: F.parse rest := by
  have one : F.encodeAll [m] = F.encode m := List.append_nil _
  rw [← one, parse_encodeAll_append exact, List.singleton_append]

/-- Without a frame in front of it, a stream has none. -/
theorem parse_eq_nil {bytes : List β} (none : ∀ m size, F.scan bytes ≠ .frame m size) :
    F.parse bytes = [] := by
  unfold parse
  cases bytes.length with
  | zero => rfl
  | succ n =>
      rw [parseUpTo]
      split
      case h_1 m size found => exact absurd found (none m size)
      case h_2 => rfl

/-- The frames of an initial part of a stream are the first ones of the stream. -/
theorem prefix_of_encodeAll_prefix (exact : F.Exact) {taken all : List μ} {rest : List β}
    (part : F.encodeAll taken ++ rest <+: F.encodeAll all) : taken <+: all := by
  obtain ⟨more, bytes⟩ := part
  have whole := F.parse_encodeAll_append exact all []
  rw [List.append_nil, ← bytes, List.append_assoc, parse_encodeAll_append exact] at whole
  have nothing : F.parse [] = [] := rfl
  rw [nothing, List.append_nil] at whole
  exact ⟨_, whole⟩

end Framing

end LibSBus.Lib
