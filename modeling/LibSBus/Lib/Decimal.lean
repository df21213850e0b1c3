import Mathlib.Data.List.Basic
import Mathlib.Tactic.IntervalCases

/-!
Decimal text as bytes, and texts joined by a separator. Reading back is a left
inverse of printing, so printing is injective; a separator that neither part
contains splits a joined text in one way only.
-/

namespace LibSBus.Lib

/-- The ASCII digits of `n`, most significant first, as `%u` prints them. -/
def decimal (n : Nat) : List UInt8 := (Nat.toDigits 10 n).map Char.toUInt8

def readDecimal (text : List UInt8) : Nat :=
  text.foldl (fun value byte => 10 * value + (byte.toNat - 48)) 0

theorem digit_byte {n : Nat} {byte : UInt8} (member : byte ∈ decimal n) :
    48 ≤ byte.toNat ∧ byte.toNat ≤ 57 := by
  obtain ⟨c, mem, rfl⟩ := List.mem_map.mp member
  have digit := Nat.isDigit_of_mem_toDigits (by decide) (by decide) mem
  simp only [Char.isDigit, Bool.and_eq_true, decide_eq_true_eq] at digit
  obtain ⟨low, high⟩ := digit
  have low' : 48 ≤ c.val.toNat := low
  have high' : c.val.toNat ≤ 57 := high
  have small : c.toUInt8.toNat = c.val.toNat := by
    simp only [Char.toUInt8, UInt32.toNat_toUInt8]
    omega
  omega

theorem readDecimal_decimal (n : Nat) : readDecimal (decimal n) = n := by
  have agree : ∀ (digits : List Char) (value : Nat),
      (∀ c ∈ digits, c.isDigit) →
      (digits.map Char.toUInt8).foldl
        (fun value byte => 10 * value + (byte.toNat - 48)) value =
      Nat.ofDigitChars 10 digits value := by
    intro digits
    induction digits with
    | nil => intros; rfl
    | cons c rest ih =>
        intro value all
        have digit := all c List.mem_cons_self
        simp only [Char.isDigit, Bool.and_eq_true, decide_eq_true_eq] at digit
        have high : c.val.toNat ≤ 57 := digit.2
        have same : c.toUInt8.toNat = c.toNat := by
          simp only [Char.toUInt8, UInt32.toNat_toUInt8, Char.toNat]
          omega
        rw [List.map_cons, List.foldl_cons, Nat.ofDigitChars_cons, same]
        exact ih _ fun d member => all d (List.mem_cons_of_mem c member)
  rw [readDecimal, decimal, agree _ 0 fun c member =>
    Nat.isDigit_of_mem_toDigits (by decide) (by decide) member]
  exact Nat.ofDigitChars_ten_toDigits

theorem decimal_injective : Function.Injective decimal :=
  Function.LeftInverse.injective readDecimal_decimal

theorem not_mem_decimal {byte : UInt8} (n : Nat) (other : byte.toNat < 48 ∨ 57 < byte.toNat) :
    byte ∉ decimal n := by
  intro member
  have := digit_byte member
  omega

theorem length_decimal_le {n k : Nat} (positive : 0 < k) (small : n < 10 ^ k) :
    (decimal n).length ≤ k := by
  rw [decimal, List.length_map]
  exact (Nat.length_toDigits_le_iff (by decide) positive).mpr small

theorem decimal_ne_nil (n : Nat) : decimal n ≠ [] := by
  simp [decimal]

/-- No leading zero is printed. -/
theorem head_decimal_ne_zero {n : Nat} (positive : 0 < n) :
    ∃ digit rest, decimal n = digit :: rest ∧ digit ≠ 48 := by
  induction n using Nat.strong_induction_on with
  | _ n ih =>
      cases Nat.lt_or_ge n 10 with
      | inl single =>
          have one := Nat.toDigits_of_lt_base single
          refine ⟨(Nat.digitChar n).toUInt8, [], by simp [decimal, one], ?_⟩
          interval_cases n <;> decide
      | inr more =>
          obtain ⟨digit, rest, printed, nonzero⟩ := ih (n / 10) (by omega) (by omega)
          have front : decimal n = decimal (n / 10) ++ [(Nat.digitChar (n % 10)).toUInt8] := by
            simp [decimal, Nat.toDigits_of_base_le (by decide : 1 < 10) more]
          rw [front, printed]
          exact ⟨digit, rest ++ _, rfl, nonzero⟩

/-- A text is cut at the first separator in one way only. -/
theorem append_separator_inj {α : Type*} {sep : α} {xs xs' ys ys' : List α}
    (absent : sep ∉ xs) (absent' : sep ∉ xs') :
    xs ++ sep :: ys = xs' ++ sep :: ys' ↔ xs = xs' ∧ ys = ys' := by
  induction xs generalizing xs' with
  | nil =>
      cases xs' with
      | nil => simp
      | cons x rest =>
          have other : sep ≠ x := fun same => absent' (by simp [same])
          simp [other]
  | cons x rest ih =>
      have other : x ≠ sep := fun same => absent (by simp [same])
      cases xs' with
      | nil => simp [other]
      | cons x' rest' =>
          have ih' := @ih rest' (fun member => absent (List.mem_cons_of_mem x member))
            (fun member => absent' (List.mem_cons_of_mem x' member))
          simp only [List.cons_append, List.cons.injEq, ih']
          tauto

end LibSBus.Lib
