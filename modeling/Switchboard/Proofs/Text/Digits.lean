/-
Switchboard/Proofs/Text/Digits.lean

The digits of a number: all of them are digits, there is at least one, they
have the number as their value, and none is a leading zero.  Filled up with
zeros they have the same value, and the width that was asked for if the
number fits it.
-/
import Mathlib
import Switchboard.Text.Digits

namespace Switchboard.Text

variable {n width : Nat} {c : Char}

theorem isDigit_of_mem_decimal (h : c ∈ decimal n) : c.isDigit = true :=
  Nat.isDigit_of_mem_toDigits (by decide) (by decide) h

/-- The digits of a number are read back as that number. -/
theorem value_decimal (n : Nat) : Nat.ofDigitChars 10 (decimal n) 0 = n :=
  Nat.ofDigitChars_toDigits (by decide) (by decide)

/-- The digits have a first one, which is zero for the number zero alone. -/
theorem exists_decimal (n : Nat) :
    ∃ c cs, decimal n = c :: cs ∧ c.isDigit = true ∧ (c = '0' → n = 0 ∧ cs = []) := by
  induction n using Nat.strong_induction_on with
  | _ n ih =>
    rcases Nat.lt_or_ge n 10 with h | h
    · refine ⟨n.digitChar, [], Nat.toDigits_of_lt_base h, ?_, ?_⟩
      · rw [Nat.isDigit_digitChar, decide_eq_true h]
      · intro h0
        exact ⟨Nat.digitChar_eq_zero.1 h0, rfl⟩
    · -- the first digit is that of the number without its last
      obtain ⟨c, cs, hd, hc, h0⟩ := ih (n / 10) (by omega)
      refine ⟨c, cs ++ [(n % 10).digitChar], ?_, hc, ?_⟩
      · rw [decimal, Nat.toDigits_of_base_le (by decide) h, ← List.cons_append]
        exact congrArg (· ++ _) hd
      · intro hz
        have := (h0 hz).1
        omega

theorem isDigit_of_mem_padded (h : c ∈ padded width n) : c.isDigit = true := by
  rw [padded, fill, List.mem_append] at h
  rcases h with h | h
  · -- a zero that fills up
    rw [List.eq_of_mem_replicate h]
    rfl
  · exact isDigit_of_mem_decimal h

/-- Leading zeros do not change what is read. -/
theorem value_padded (width n : Nat) : Nat.ofDigitChars 10 (padded width n) 0 = n := by
  rw [padded, fill, Nat.ofDigitChars_append, Nat.ofDigitChars_replicate_zero, Nat.mul_zero,
    value_decimal]

/-- A number that fits is as wide as was asked for. -/
theorem length_padded (hw : 0 < width) (h : n < 10 ^ width) : (padded width n).length = width := by
  have hl : (decimal n).length ≤ width := (Nat.length_toDigits_le_iff (by decide) hw).2 h
  rw [padded, fill, List.length_append, List.length_replicate]
  omega

/-- And one that does not is wider. -/
theorem le_length_padded (width n : Nat) : width ≤ (padded width n).length := by
  rw [padded, fill, List.length_append, List.length_replicate]
  omega

end Switchboard.Text
