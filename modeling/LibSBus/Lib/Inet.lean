import LibSBus.Lib.Decimal

/-!
Internet addresses between their text and the number the network carries. The
parser takes what `inet_aton` is documented to take: one to four parts, each in
decimal, in octal after a leading `0` or in hexadecimal after `0x`. Printing a
part in decimal without a leading zero keeps it clear of the other two bases.
-/

namespace LibSBus.Lib

/-- `htons` and `ntohs` on a little-endian host. -/
def swap16 (n : BitVec 16) : BitVec 16 := n.extractLsb' 0 8 ++ n.extractLsb' 8 8

/-- `htonl` and `ntohl` on a little-endian host. -/
def swap32 (n : BitVec 32) : BitVec 32 :=
  n.extractLsb' 0 8 ++ n.extractLsb' 8 8 ++ n.extractLsb' 16 8 ++ n.extractLsb' 24 8

/-- The value of a digit, the letters in either case. -/
def digitValue (byte : UInt8) : Option Nat :=
  if 48 ≤ byte.toNat ∧ byte.toNat ≤ 57 then some (byte.toNat - 48)
  else if 97 ≤ byte.toNat ∧ byte.toNat ≤ 102 then some (byte.toNat - 87)
  else if 65 ≤ byte.toNat ∧ byte.toNat ≤ 70 then some (byte.toNat - 55)
  else none

/-- The number that the digits of a base at the front of a text continue `value`
with, and the text behind them. -/
def readDigits (base : Nat) : Nat → List UInt8 → Nat × List UInt8
  | value, [] => (value, [])
  | value, byte :: rest =>
      match (digitValue byte).filter (· < base) with
      | none => (value, byte :: rest)
      | some digit => readDigits base (base * value + digit) rest

/-- `strtoul` with base 0, on a text that begins with a digit. -/
def strtoul (text : List UInt8) : Nat × List UInt8 :=
  match text with
  | [] => (0, [])
  | first :: rest =>
      if first ≠ 48 then readDigits 10 0 (first :: rest)
      else
        match rest with
        | x :: digit :: more =>
            if (x = 120 ∨ x = 88) ∧ digitValue digit ≠ none then readDigits 16 0 (digit :: more)
            else readDigits 8 0 rest
        | _ => readDigits 8 0 rest

/-- The text ends here, or at blanks. -/
def EndsHere : List UInt8 → Prop
  | [] => True
  | byte :: _ => byte = 32 ∨ (9 ≤ byte.toNat ∧ byte.toNat ≤ 13)

instance : DecidablePred EndsHere := fun text =>
  match text with
  | [] => .isTrue trivial
  | _ :: _ => inferInstanceAs (Decidable (_ ∨ _))

/-- The parts of an address from one that may have `left` behind it. All but the
last are bytes, the last one fills what is left of the number. -/
def readParts : Nat → Nat → List UInt8 → Option Nat
  | left, high, text =>
      match text.head? with
      | none => none
      | some first =>
          if 48 ≤ first.toNat ∧ first.toNat ≤ 57 then
            match strtoul text with
            | (value, 46 :: more) =>
                match left with
                | 0 => none
                | left + 1 => if value ≤ 255 then readParts left (256 * high + value) more else none
            | (value, behind) =>
                if EndsHere behind ∧ value < 256 ^ (left + 1) then
                  some (high * 256 ^ (left + 1) + value)
                else none
          else none

/-- `inet_aton`: the address in network order, none where it returns 0. -/
def inetAton (text : List UInt8) : Option (BitVec 32) :=
  (readParts 3 0 text).map fun n => swap32 (BitVec.ofNat 32 n)

theorem toNat_append_byte {w : Nat} (x : BitVec w) (y : BitVec 8) :
    (x ++ y).toNat = 256 * x.toNat + y.toNat := by
  have := Nat.shiftLeft_add_eq_or_of_lt y.isLt x.toNat
  rw [BitVec.toNat_append, ← this, Nat.shiftLeft_eq]
  omega

/-- The byte at the bottom moves to the top, and so on inwards. -/
theorem swap32_toNat {n : BitVec 32} {a b c d : Nat} (hb : b < 256) (hc : c < 256)
    (hd : d < 256) (number : n.toNat = 256 * (256 * (256 * a + b) + c) + d) :
    (swap32 n).toNat = 256 * (256 * (256 * d + c) + b) + a := by
  have small := n.isLt
  have lowest : n.toNat % 256 = d := by omega
  have low : n.toNat / 256 % 256 = c := by omega
  have high : n.toNat / 65536 % 256 = b := by omega
  have highest : n.toNat / 16777216 % 256 = a := by omega
  simp [swap32, toNat_append_byte, Nat.shiftRight_eq_div_pow, lowest, low, high, highest]

theorem swap32_swap32 (n : BitVec 32) : swap32 (swap32 n) = n := by
  have small := n.isLt
  obtain ⟨a, b, c, d, ha, hb, hc, hd, number⟩ : ∃ a b c d, a < 256 ∧ b < 256 ∧ c < 256 ∧ d < 256 ∧
      n.toNat = 256 * (256 * (256 * a + b) + c) + d :=
    ⟨n.toNat / 2 ^ 24, n.toNat / 2 ^ 16 % 256, n.toNat / 256 % 256, n.toNat % 256,
      by omega, by omega, by omega, by omega, by omega⟩
  apply BitVec.eq_of_toNat_eq
  rw [number, swap32_toNat hc hb ha (swap32_toNat hb hc hd number)]

theorem swap16_swap16 (n : BitVec 16) : swap16 (swap16 n) = n := by
  have small := n.isLt
  have swapped : ∀ m : BitVec 16, (swap16 m).toNat = 256 * (m.toNat % 256) + m.toNat / 256 := by
    intro m
    have small := m.isLt
    simp [swap16, toNat_append_byte, Nat.shiftRight_eq_div_pow]
    omega
  apply BitVec.eq_of_toNat_eq
  rw [swapped, swapped]
  omega

/-- A run of decimal digits is read to its end. -/
theorem readDigits_append {text tail : List UInt8}
    (digits : ∀ byte ∈ text, 48 ≤ byte.toNat ∧ byte.toNat ≤ 57)
    (stops : ∀ byte ∈ tail.head?, byte = 46) (value : Nat) :
    readDigits 10 value (text ++ tail) =
      (text.foldl (fun value byte => 10 * value + (byte.toNat - 48)) value, tail) := by
  induction text generalizing value with
  | nil =>
      cases tail with
      | nil => rfl
      | cons byte rest =>
          have dot := stops byte (by simp)
          subst dot
          rfl
  | cons byte rest ih =>
      have digit := digits byte List.mem_cons_self
      have some : (digitValue byte).filter (· < 10) = some (byte.toNat - 48) := by
        simp [digitValue, digit]
        omega
      simp only [List.cons_append, readDigits, some, List.foldl_cons]
      exact ih (fun b member => digits b (List.mem_cons_of_mem byte member)) _

/-- The base is decimal, as nothing printed in decimal begins with a zero that more
digits or an `x` follow. -/
theorem strtoul_decimal (n : Nat) (tail : List UInt8) (stops : ∀ byte ∈ tail.head?, byte = 46) :
    strtoul (decimal n ++ tail) = (n, tail) := by
  cases Nat.eq_zero_or_pos n with
  | inl zero =>
      subst zero
      cases tail with
      | nil => rfl
      | cons byte rest =>
          have dot := stops byte (by simp)
          subst dot
          cases rest <;> rfl
  | inr positive =>
      obtain ⟨digit, rest, printed, nonzero⟩ := head_decimal_ne_zero positive
      have read := readDigits_append (fun byte member => digit_byte (n := n) member) stops 0
      rw [← readDecimal, readDecimal_decimal] at read
      simpa [strtoul, printed, nonzero] using read

theorem head_decimal (n : Nat) (tail : List UInt8) :
    ∃ first, (decimal n ++ tail).head? = some first ∧ 48 ≤ first.toNat ∧ first.toNat ≤ 57 := by
  cases printed : decimal n with
  | nil => exact absurd printed (decimal_ne_nil n)
  | cons first rest => exact ⟨first, rfl, digit_byte (n := n) (by simp [printed])⟩

theorem readParts_dot {value : Nat} (small : value ≤ 255) (left high : Nat) (more : List UInt8) :
    readParts (left + 1) high (decimal value ++ 46 :: more) =
      readParts left (256 * high + value) more := by
  obtain ⟨first, head, digit⟩ := head_decimal value (46 :: more)
  have read := strtoul_decimal value (46 :: more) (by simp)
  rw [readParts, head]
  simp [digit, read, small]

theorem readParts_last {value left : Nat} (small : value < 256 ^ (left + 1)) (high : Nat) :
    readParts left high (decimal value) = some (high * 256 ^ (left + 1) + value) := by
  obtain ⟨first, head, digit⟩ := head_decimal value []
  have read := strtoul_decimal value [] (by simp)
  rw [List.append_nil] at head read
  rw [readParts, head]
  simp [digit, read, EndsHere, small]

/-- Four decimal parts are the bytes of the address, whatever digits they begin with. -/
theorem inetAton_dotted {a b c d : Nat} (ha : a < 256) (hb : b < 256) (hc : c < 256)
    (hd : d < 256) :
    inetAton (decimal a ++ 46 :: (decimal b ++ 46 :: (decimal c ++ 46 :: decimal d))) =
      some (swap32 (BitVec.ofNat 32 (256 * (256 * (256 * a + b) + c) + d))) := by
  rw [inetAton, readParts_dot (by omega), readParts_dot (by omega), readParts_dot (by omega),
    readParts_last (by simpa using hd)]
  simp [Nat.mul_comm]

/-- A leading zero would have made the part octal. -/
example : inetAton [48, 49, 48, 46, 48, 120, 102, 102] = some (swap32 (8 * 2 ^ 24 + 255)) := by
  decide

end LibSBus.Lib
