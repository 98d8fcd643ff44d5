import Mathlib.Data.Nat.Digits.Lemmas

/-
  Numbers as texts of digits in a base, the highest first.

  Key definitions include:
    * `Numeral.value`
    * `Numeral.Canonical`
    * `Numeral.write`

  Key theorems include:
    * `Numeral.value_write`
    * `Numeral.canonical_write`
    * `Numeral.write_value`
-/

------------------------------------------------------------
-- Texts of Digits
------------------------------------------------------------

namespace Numeral

/- The number that digits stand for, read from the left. -/
def value (base : Nat) (digits : List Nat) : Nat :=
  digits.foldl (fun n digit => n * base + digit) 0

/- The digits of a number; of zero there is one. -/
def write (base n : Nat) : List Nat :=
  if n = 0 then [0] else (Nat.digits base n).reverse

/- Digits of the base, and no zero in front of others. -/
structure Canonical
    (base : Nat)
    (digits : List Nat) : Prop where
  digit_lt : ∀ digit ∈ digits, digit < base
  nonempty : digits ≠ []
  leading : digits.head? = some 0 → digits = [0]

variable {base : Nat}

theorem value_append_singleton
    (digits : List Nat)
    (digit : Nat) :
    value base (digits ++ [digit]) =
      value base digits * base + digit := by
  simp [value]

/- Mathlib has the lowest digit first. -/
theorem value_eq_ofDigits (digits : List Nat) :
    value base digits = Nat.ofDigits base digits.reverse := by
  induction digits using List.reverseRecOn with
  | nil => rfl
  | append_singleton digits digit ih =>
      rw [value_append_singleton, ih, List.reverse_append,
        List.reverse_singleton, List.singleton_append,
        Nat.ofDigits_cons]
      ring

theorem value_write (n : Nat) :
    value base (write base n) = n := by
  unfold write
  by_cases hZero : n = 0
  · rw [if_pos hZero, hZero]
    simp [value]
  · rw [if_neg hZero, value_eq_ofDigits, List.reverse_reverse,
      Nat.ofDigits_digits]

theorem canonical_write
    (hBase : 1 < base)
    (n : Nat) :
    Canonical base (write base n) := by
  unfold write
  by_cases hZero : n = 0
  · rw [if_pos hZero]
    exact ⟨by simp; omega, by simp, fun _ => rfl⟩
  · rw [if_neg hZero]
    have hDigits : Nat.digits base n ≠ [] :=
      Nat.digits_ne_nil_iff_ne_zero.mpr hZero
    refine ⟨?_, by simpa using hDigits, ?_⟩
    · intro digit hDigit
      exact Nat.digits_lt_base hBase
        (List.mem_reverse.mp hDigit)
    · intro hHead
      rw [List.head?_reverse,
        List.getLast?_eq_some_getLast hDigits,
        Option.some.injEq] at hHead
      exact absurd hHead (Nat.getLast_digit_ne_zero base hZero)

/- Canonical digits are the ones that are written. -/
theorem write_value
    (hBase : 1 < base)
    {digits : List Nat}
    (hCanonical : Canonical base digits) :
    write base (value base digits) = digits := by
  by_cases hHead : digits.head? = some 0
  · rw [hCanonical.leading hHead]
    simp [value, write]
  · have hReverse : digits.reverse ≠ [] := by
      simpa using hCanonical.nonempty
    have hLast (hSome : digits.reverse ≠ []) :
        digits.reverse.getLast hSome ≠ 0 := by
      intro hZero
      apply hHead
      rw [← List.getLast?_reverse,
        List.getLast?_eq_some_getLast hSome, hZero]
    have hDigits :
        Nat.digits base (value base digits) =
          digits.reverse := by
      rw [value_eq_ofDigits]
      exact Nat.digits_ofDigits base hBase _
        (fun digit hDigit =>
          hCanonical.digit_lt digit
            (List.mem_reverse.mp hDigit)) hLast
    have hNonzero : value base digits ≠ 0 := by
      intro hZero
      rw [hZero, Nat.digits_zero] at hDigits
      exact hReverse hDigits.symm
    rw [write, if_neg hNonzero, hDigits, List.reverse_reverse]

end Numeral
