import Mathlib.Data.List.TakeWhile
import XMLHttpRequest.Base.PercentCoding

/-
  What `decodeURIComponent` does with the percent signs that
  no two digits follow.

  Key definitions include:
    * `Network.WellEscaped`
    * `Network.MeetsRefused`
    * `Network.DecodesSafely`

  Key theorems include:
    * `Network.stoiHex_short`
    * `Network.decodeURIComponent_throws`
    * `Network.decodesSafely_iff`
-/

------------------------------------------------------------
-- Numbers in Short Texts
------------------------------------------------------------

namespace Network

/- The digits that `stoiHex` finds. -/
def stoiDigits (s : Bytes) : Bytes :=
  (afterHexPrefix
    (afterSign (s.dropWhile isSpace)).2).takeWhile isHexDigit

theorem length_stoiDigits_le (s : Bytes) :
    (stoiDigits s).length ≤ s.length := by
  have hSign :
      ∀ t : Bytes, (afterSign t).2.length ≤ t.length := by
    intro t
    unfold afterSign
    split <;> simp
  have hPrefix :
      ∀ t : Bytes, (afterHexPrefix t).length ≤ t.length := by
    intro t
    unfold afterHexPrefix
    split
    · split
      · simp only [List.length_cons]
        omega
      · exact le_rfl
    · exact le_rfl
  calc
    (stoiDigits s).length
      ≤ (afterHexPrefix
          (afterSign (s.dropWhile isSpace)).2).length :=
        (List.takeWhile_sublist _).length_le
    _ ≤ (afterSign (s.dropWhile isSpace)).2.length :=
        hPrefix _
    _ ≤ (s.dropWhile isSpace).length := hSign _
    _ ≤ s.length := (List.dropWhile_sublist _).length_le

theorem not_outOfRange
    {magnitude : Nat}
    (hSmall : magnitude < 2 ^ 31)
    (negative : Bool) :
    let n : Int := if negative then -magnitude else magnitude
    ¬ (n < -2 ^ 31 || 2 ^ 31 ≤ n : Bool) := by
  intro n
  rw [Bool.or_eq_true, decide_eq_true_eq, decide_eq_true_eq]
  simp only [n]
  split <;> omega

/- Seven characters hold no number that is out of range. -/
theorem stoiHex_short
    {s : Bytes}
    (hShort : s.length ≤ 7) :
    (stoiDigits s = [] →
      stoiHex s = .throws .invalidArgument) ∧
    (stoiDigits s ≠ [] → ∃ n, stoiHex s = .returns n) := by
  have hNumber :=
    foldl_numeral_lt (stoiDigits s)
      (fun c hC =>
        hexValue_lt c (List.mem_takeWhile_imp hC)) 0
  have hLength := length_stoiDigits_le s
  have hPower :
      16 ^ (stoiDigits s).length ≤ 16 ^ 7 :=
    Nat.pow_le_pow_right (by decide) (by omega)
  constructor
  · intro hNone
    exact if_pos hNone
  · intro hSome
    have hSmall :
        (stoiDigits s).foldl
            (fun n c => n * 16 + hexValue c) 0 < 2 ^ 31 := by
      omega
    exact ⟨_, (if_neg hSome).trans
      (if_neg (not_outOfRange hSmall _))⟩

end Network

------------------------------------------------------------
-- Escapes
------------------------------------------------------------

namespace Network

/-
  `std::stoi` finds no digit in the two characters: none comes
  first, and none comes after a space or a sign.
-/
def Refused (first second : UInt8) : Prop :=
  isHexDigit first = false ∧
    ¬ ((isSpace first = true ∨ first = 43 ∨ first = 45) ∧
      isHexDigit second = true)

section FirstCharacter

variable {c : UInt8}
variable {s : Bytes}

theorem stoiDigits_of_space
    (hSpace : isSpace c = true)
    (s : Bytes) :
    stoiDigits (c :: s) = stoiDigits s := by
  rw [stoiDigits, List.dropWhile_cons, if_pos hSpace,
    ← stoiDigits]

theorem stoiDigits_of_sign
    (hSign : c = 43 ∨ c = 45)
    (hShort : s.length ≤ 2) :
    stoiDigits (c :: s) = s.takeWhile isHexDigit := by
  rcases hSign with rfl | rfl
  · rw [stoiDigits, List.dropWhile_cons, if_neg (by decide),
      afterSign, afterHexPrefix_short hShort]
  · rw [stoiDigits, List.dropWhile_cons, if_neg (by decide),
      afterSign, afterHexPrefix_short hShort]

theorem stoiDigits_of_other
    (hSpace : isSpace c = false)
    (hPlus : c ≠ 43)
    (hMinus : c ≠ 45)
    (hShort : s.length ≤ 1) :
    stoiDigits (c :: s) = (c :: s).takeWhile isHexDigit := by
  rw [stoiDigits, List.dropWhile_cons, hSpace,
    if_neg Bool.false_ne_true, afterSign_other hPlus hMinus,
    afterHexPrefix_short (by simpa using hShort)]

end FirstCharacter

theorem stoiDigits_single (c : UInt8) :
    stoiDigits [c] = [] ↔ isHexDigit c = false := by
  by_cases hDigit : isHexDigit c = true
  · rcases isHexDigit_plain c hDigit with
      ⟨hSpace, hPlus, hMinus⟩
    rw [stoiDigits_of_other hSpace hPlus hMinus (by simp)]
    simp [hDigit]
  · refine iff_of_true ?_ (Bool.eq_false_iff.mpr hDigit)
    by_cases hSpace : isSpace c = true
    · rw [stoiDigits_of_space hSpace]
      rfl
    · by_cases hSign : c = 43 ∨ c = 45
      · rw [stoiDigits_of_sign hSign (by simp)]
        rfl
      · rcases not_or.mp hSign with ⟨hPlus, hMinus⟩
        rw [stoiDigits_of_other
          (Bool.eq_false_iff.mpr hSpace) hPlus hMinus
            (by simp)]
        simp [hDigit]

theorem stoiDigits_pair (first second : UInt8) :
    stoiDigits [first, second] = [] ↔
      Refused first second := by
  unfold Refused
  by_cases hDigit : isHexDigit first = true
  · rcases isHexDigit_plain first hDigit with
      ⟨hSpace, hPlus, hMinus⟩
    rw [stoiDigits_of_other hSpace hPlus hMinus (by simp)]
    simp [hDigit]
  · by_cases hSpace : isSpace first = true
    · rw [stoiDigits_of_space hSpace, stoiDigits_single]
      simp [hDigit, hSpace]
    · by_cases hSign : first = 43 ∨ first = 45
      · rw [stoiDigits_of_sign hSign (by simp)]
        simp [hDigit, hSign]
      · rcases not_or.mp hSign with ⟨hPlus, hMinus⟩
        rw [stoiDigits_of_other
          (Bool.eq_false_iff.mpr hSpace) hPlus hMinus
            (by simp)]
        simp [hDigit, hSpace, hSign]

/- Two characters are read as a byte, or refused. -/
theorem stringToHex_pair (first second : UInt8) :
    (Refused first second →
      stringToHex [first, second] =
        .throws .invalidArgument) ∧
    (¬ Refused first second →
      ∃ byte,
        stringToHex [first, second] = .returns byte) := by
  have hShort : [first, second].length ≤ 7 := by simp
  rcases stoiHex_short hShort with ⟨hThrows, hReturns⟩
  rw [stoiDigits_pair] at hThrows
  rw [Ne, stoiDigits_pair] at hReturns
  unfold stringToHex
  constructor
  · intro hRefused
    rw [hThrows hRefused]
    rfl
  · intro hRead
    rcases hReturns hRead with ⟨n, hNumber⟩
    rw [hNumber]
    exact ⟨_, rfl⟩

end Network

------------------------------------------------------------
-- The Scan
------------------------------------------------------------

namespace Network

/-
  Every percent sign met from the left, one character at a
  time and three at an escape, has two digits behind it.
-/
inductive WellEscaped : Bytes → Prop
  | nil : WellEscaped []
  | literal {c : UInt8} {rest : Bytes} :
      c ≠ 37 →
      WellEscaped rest →
      WellEscaped (c :: rest)
  | escape {first second : UInt8} {rest : Bytes} :
      isHexDigit first = true →
      isHexDigit second = true →
      WellEscaped rest →
      WellEscaped (37 :: first :: second :: rest)

/-
  The same scan meets a percent sign whose two characters are
  refused, the second of them being zero at the end.
-/
inductive MeetsRefused : Bytes → Prop
  | literal {c : UInt8} {rest : Bytes} :
      c ≠ 37 →
      MeetsRefused rest →
      MeetsRefused (c :: rest)
  | escape {first second : UInt8} {rest : Bytes} :
      MeetsRefused rest →
      MeetsRefused (37 :: first :: second :: rest)
  | pair {first second : UInt8} {rest : Bytes} :
      Refused first second →
      MeetsRefused (37 :: first :: second :: rest)
  | last {first : UInt8} :
      Refused first 0 →
      MeetsRefused [37, first]

/-
  No read behind the end, a normal return for exactly the
  well escaped strings, and the one exception for the others.
-/
structure DecodesSafely (s : Bytes) : Prop where
  inside : decodeURIComponent s ≠ .undefined
  returns :
    (∃ o, decodeURIComponent s = .returns o) ↔ WellEscaped s
  throws :
    ¬ WellEscaped s →
      decodeURIComponent s = .throws .invalidArgument

theorem decodeURIComponent_returns
    {s : Bytes}
    (hWell : WellEscaped s) :
    ∃ o, decodeURIComponent s = .returns o := by
  induction hWell with
  | nil => exact ⟨[], rfl⟩
  | @literal c rest hLiteral _ ih =>
      rcases ih with ⟨o, hRest⟩
      by_cases hPlus : c = 43
      · subst hPlus
        rw [decodeURIComponent_plus, hRest]
        exact ⟨_, rfl⟩
      · rw [decodeURIComponent_literal hLiteral hPlus, hRest]
        exact ⟨_, rfl⟩
  | @escape first second rest hFirst hSecond _ ih =>
      rcases ih with ⟨o, hRest⟩
      have hRead : ¬ Refused first second := by
        simp [Refused, hFirst]
      rcases (stringToHex_pair first second).2 hRead with
        ⟨byte, hByte⟩
      rw [decodeURIComponent, if_pos rfl]
      simp only [hByte, Outcome.bind_returns, hRest]
      exact ⟨_, rfl⟩

theorem decodeURIComponent_throws
    {s : Bytes}
    (hMeets : MeetsRefused s) :
    decodeURIComponent s = .throws .invalidArgument := by
  induction hMeets with
  | @literal c rest hLiteral _ ih =>
      by_cases hPlus : c = 43
      · subst hPlus
        rw [decodeURIComponent_plus, ih]
        rfl
      · rw [decodeURIComponent_literal hLiteral hPlus, ih]
        rfl
  | @escape first second rest _ ih =>
      rw [decodeURIComponent, if_pos rfl]
      by_cases hRefused : Refused first second
      · rw [(stringToHex_pair first second).1 hRefused]
        rfl
      · rcases (stringToHex_pair first second).2 hRefused
          with ⟨byte, hByte⟩
        rw [hByte, Outcome.bind_returns, ih]
        rfl
  | @pair first second rest hRefused =>
      rw [decodeURIComponent, if_pos rfl,
        (stringToHex_pair first second).1 hRefused]
      rfl
  | @last first hRefused =>
      rw [decodeURIComponent, if_pos rfl,
        (stringToHex_pair first 0).1 hRefused]
      rfl

theorem meetsRefused_of_throws
    {s : Bytes}
    (hThrows :
      decodeURIComponent s = .throws .invalidArgument) :
    MeetsRefused s := by
  induction s using decodeURIComponent.induct with
  | case1 => cases hThrows
  | case2 first second rest ih =>
      by_cases hRefused : Refused first second
      · exact .pair hRefused
      · rcases (stringToHex_pair first second).2 hRefused
          with ⟨byte, hByte⟩
        rw [decodeURIComponent, if_pos rfl] at hThrows
        simp only [hByte, Outcome.bind_returns,
          Outcome.map_eq_throws_iff] at hThrows
        exact .escape (ih hThrows)
  | case3 first =>
      by_cases hRefused : Refused first 0
      · exact .last hRefused
      · rcases (stringToHex_pair first 0).2 hRefused with
          ⟨byte, hByte⟩
        rw [decodeURIComponent, if_pos rfl] at hThrows
        simp only [hByte, Outcome.bind_returns] at hThrows
        cases hThrows
  | case4 => cases hThrows
  | case5 rest hLiteral ih =>
      rw [decodeURIComponent_plus] at hThrows
      exact .literal hLiteral
        (ih (Outcome.map_eq_throws_iff.mp hThrows))
  | case6 c rest hLiteral hPlus ih =>
      rw [decodeURIComponent_literal hLiteral hPlus]
        at hThrows
      exact .literal hLiteral
        (ih (Outcome.map_eq_throws_iff.mp hThrows))

/-
  Beside the well escaped strings, the decoder is safe on
  those whose scan meets a refused pair, where it throws.
-/
theorem decodesSafely_iff (s : Bytes) :
    DecodesSafely s ↔ WellEscaped s ∨ MeetsRefused s := by
  constructor
  · intro hSafe
    by_cases hWell : WellEscaped s
    · exact .inl hWell
    · exact .inr (meetsRefused_of_throws (hSafe.throws hWell))
  · intro hEither
    by_cases hWell : WellEscaped s
    · rcases decodeURIComponent_returns hWell with
        ⟨o, hReturns⟩
      exact
        { inside := by rw [hReturns]; exact nofun
          returns := ⟨fun _ => hWell, fun _ => ⟨o, hReturns⟩⟩
          throws := fun hNot => absurd hWell hNot }
    · have hThrows :=
        decodeURIComponent_throws (hEither.resolve_left hWell)
      refine
        { inside := by rw [hThrows]; exact nofun
          returns := ⟨?_, fun hNot => absurd hNot hWell⟩
          throws := fun _ => hThrows }
      rintro ⟨o, hReturns⟩
      rw [hThrows] at hReturns
      cases hReturns

/-
  A percent sign at the end and one before a lone digit are
  read past; a digit before a letter is taken for a number.
-/
theorem decodeURIComponent_unsafe :
    ¬ DecodesSafely (ascii "%") ∧
      ¬ DecodesSafely (ascii "%4") ∧
        ¬ DecodesSafely (ascii "%4g") := by
  refine ⟨fun hSafe => hSafe.inside (by decide),
    fun hSafe => hSafe.inside (by decide +kernel), ?_⟩
  intro hSafe
  have hReturns :
      decodeURIComponent (ascii "%4g") = .returns [4] := by
    decide +kernel
  cases hSafe.returns.mp ⟨[4], hReturns⟩ with
  | literal hLiteral => exact hLiteral rfl
  | escape hFirst hSecond => exact absurd hSecond (by decide)

end Network
