import XMLHttpRequest.Base.JsFunctions
import XMLHttpRequest.Library.Numeral

/-
  The numbers that `session_utils` reads and writes as text
  (sessionutil.h): how far the reading is exact, and that it
  and the writing undo each other.

  Key definitions include:
    * `Network.parseUintChecked`
    * `Network.utos`
    * `Network.IsDecimal`

  Key theorems include:
    * `Network.parseUintSteps_eq`
    * `Network.parseUint_exact`
    * `Network.utos_eq`
    * `Network.utos_parseUint`
-/

------------------------------------------------------------
-- Checked Arithmetic
------------------------------------------------------------

namespace Network

/- A result of `int64_t` arithmetic, undefined on overflow. -/
def int64 (n : Int) : Outcome StdException Int :=
  if -2 ^ 63 ≤ n ∧ n ≤ int64Max then .returns n
  else .undefined

/- `parseUintLoop` with a test of each result it computes. -/
def parseUintSteps :
    Bytes → Int → Nat → Outcome StdException (Int × Nat)
  | [], n, i => .returns (if i = 0 then (-1, 0) else (n, i))
  | c :: s, n, i =>
      if isDigit c then
        if n > int64Max / 10 then .returns (-1, 0)
        else
          (int64 (n * 10)).bind fun n =>
            (int64 (int64Max - digitValue c)).bind fun room =>
              if n > room then .returns (-1, 0)
              else
                (int64 (n + digitValue c)).bind fun n =>
                  parseUintSteps s n (i + 1)
      else .returns (if i = 0 then (-1, 0) else (n, i))

/- `parse_uint_digits` with its arithmetic looked at -/
def parseUintChecked
    (s : Bytes) : Outcome StdException (Int × Nat) :=
  if s.length = 0 then .returns (-1, 0)
  else parseUintSteps s 0 0

theorem int64_of_fits
    {n : Int}
    (hNonneg : 0 ≤ n)
    (hFits : n ≤ int64Max) :
    int64 n = .returns n :=
  if_pos ⟨by omega, hFits⟩

/- No step of the scan leaves the numbers that fit. -/
theorem parseUintSteps_eq
    (s : Bytes)
    {n : Int}
    (i : Nat)
    (hNonneg : 0 ≤ n)
    (hFits : n ≤ int64Max) :
    parseUintSteps s n i = .returns (parseUintLoop s n i) := by
  have hMax : int64Max = 9223372036854775807 := rfl
  induction s generalizing n i with
  | nil => rfl
  | cons c s ih =>
      unfold parseUintSteps parseUintLoop
      by_cases hDigit : isDigit c = true
      · have hLast := digitValue_lt hDigit
        rw [if_pos hDigit, if_pos hDigit]
        by_cases hLarge : n > int64Max / 10
        · rw [if_pos hLarge, if_pos hLarge]
        · rw [if_neg hLarge, if_neg hLarge,
            int64_of_fits (by omega) (by omega),
            Outcome.bind_returns,
            int64_of_fits (by omega) (by omega),
            Outcome.bind_returns]
          by_cases hFull : n * 10 > int64Max - digitValue c
          · rw [if_pos hFull, if_pos hFull]
          · rw [if_neg hFull, if_neg hFull,
              int64_of_fits (by omega) (by omega),
              Outcome.bind_returns]
            exact ih (i + 1) (by omega) (by omega)
      · rw [if_neg hDigit, if_neg hDigit]

/-
  What fits is read exactly, what does not is refused, and
  either is found without an overflow.
-/
theorem parseUint_exact (s : Bytes) :
    (FitsInt64 s → parseUint s = decimalValue s) ∧
    (¬ FitsInt64 s → parseUint s = -1) ∧
    (FitsInt64 (s.takeWhile isDigit) →
      parseUintDigits s =
        ((decimalValue (s.takeWhile isDigit) : Int),
          (s.takeWhile isDigit).length)) ∧
    (¬ FitsInt64 (s.takeWhile isDigit) →
      parseUintDigits s = (-1, 0)) ∧
    parseUintChecked s = .returns (parseUintDigits s) := by
  refine ⟨parseUint_of_fits, parseUint_of_not_fits,
    parseUintDigits_of_fits, parseUintDigits_of_not_fits, ?_⟩
  unfold parseUintChecked parseUintDigits
  by_cases hEmpty : s.length = 0
  · rw [if_pos hEmpty, if_pos hEmpty]
  · rw [if_neg hEmpty, if_neg hEmpty]
    exact parseUintSteps_eq s 0 (by decide) (by decide)

/- A status code behind a zero. -/
theorem parseUint_exact_status :
    FitsInt64 [48, 50, 48, 52] ∧
      parseUint [48, 50, 48, 52] = 204 := by
  have hFits : FitsInt64 [48, 50, 48, 52] :=
    ⟨by decide, by simp [isDigit], by decide⟩
  exact ⟨hFits, (parseUint_exact _).1 hFits⟩

end Network

------------------------------------------------------------
-- Writing Numbers
------------------------------------------------------------

namespace Network

/- The first loop of `utos`: `nlen` counts the digits of `t`. -/
def countDigits (t nlen : Nat) : Nat :=
  if t = 0 then nlen
  else countDigits (t / 10) (sizeT (nlen + 1))
termination_by t

/-
  The second loop of `utos`: the places that it fills, one
  after the other, and with what.
-/
def utosStores (n nlen : Nat) : List (Nat × UInt8) :=
  if n = 0 then []
  else
    (sizeT (nlen - 1), UInt8.ofNat (n % 10 + 48)) ::
      utosStores (n / 10) (sizeT (nlen - 1))
termination_by n

/- `res[index] = c`, which is not checked -/
def storeChar
    (res : Bytes)
    (store : Nat × UInt8) : Outcome StdException Bytes :=
  if store.1 < res.length then
    .returns (res.set store.1 store.2)
  else .undefined

/- `utos` -/
def utos (n : Nat) : Outcome StdException Bytes :=
  if n = 0 then .returns (ascii "0")
  else
    let nlen := countDigits n 0
    Outcome.foldl storeChar (List.replicate nlen 0)
      (utosStores n nlen)

/- Decimal digits, with no zero in front of others. -/
structure IsDecimal (s : Bytes) : Prop where
  nonempty : s ≠ []
  digits : ∀ c ∈ s, isDigit c = true
  leading : s.head? = some 48 → s = ascii "0"

end Network

------------------------------------------------------------
-- The Loops of the Writing
------------------------------------------------------------

namespace Network

/- The character of a digit. -/
def digitChar (digit : Nat) : UInt8 :=
  UInt8.ofNat (digit + 48)

theorem digits_of_ne_zero
    {n : Nat}
    (hNonzero : n ≠ 0) :
    Nat.digits 10 n = n % 10 :: Nat.digits 10 (n / 10) :=
  Nat.digits_def' (by decide) (Nat.pos_of_ne_zero hNonzero)

theorem countDigits_eq
    (t nlen : Nat)
    (hBound : nlen + (Nat.digits 10 t).length < 2 ^ 64) :
    countDigits t nlen =
      nlen + (Nat.digits 10 t).length := by
  induction t, nlen using countDigits.induct with
  | case1 nlen =>
      rw [countDigits, if_pos rfl]
      simp
  | case2 t nlen hNonzero ih =>
      rw [digits_of_ne_zero hNonzero,
        List.length_cons] at hBound ⊢
      have hNext : sizeT (nlen + 1) = nlen + 1 := by
        exact_mod_cast sizeT_ofNat (n := nlen + 1) (by omega)
      rw [hNext] at ih
      rw [countDigits, if_neg hNonzero, hNext,
        ih (by omega)]
      omega

/- The place below, while there is one. -/
theorem sizeT_pred
    {n : Nat}
    (hBound : n + 1 < 2 ^ 64) :
    sizeT ((n + 1 : Nat) - 1) = n := by
  have hPred : ((n + 1 : Nat) : Int) - 1 = (n : Nat) := by
    push_cast
    omega
  rw [hPred, sizeT_ofNat (by omega)]

/- The places are filled from the last to the first. -/
theorem utosStores_places
    (n : Nat)
    (hBound : (Nat.digits 10 n).length < 2 ^ 64) :
    (utosStores n (Nat.digits 10 n).length).map Prod.fst =
      (List.range (Nat.digits 10 n).length).reverse := by
  induction n using Nat.strongRecOn with
  | ind n ih =>
      by_cases hZero : n = 0
      · subst hZero
        rw [utosStores, if_pos rfl]
        simp
      · rw [digits_of_ne_zero hZero,
          List.length_cons] at hBound ⊢
        have hRest :=
          ih (n / 10) (Nat.div_lt_self
            (Nat.pos_of_ne_zero hZero) (by decide))
              (by omega)
        rw [utosStores, if_neg hZero, sizeT_pred hBound,
          List.map_cons, hRest, List.range_succ,
          List.reverse_append, List.reverse_singleton,
          List.singleton_append]

/- The digits come to stand in front of what is written. -/
theorem foldl_utosStores
    (n : Nat)
    (front done : Bytes)
    (hLength : front.length = (Nat.digits 10 n).length)
    (hBound : front.length < 2 ^ 64) :
    Outcome.foldl storeChar (front ++ done)
        (utosStores n front.length) =
      .returns
        ((Nat.digits 10 n).reverse.map digitChar ++
          done) := by
  induction n using Nat.strongRecOn generalizing front done with
  | ind n ih =>
      by_cases hZero : n = 0
      · subst hZero
        have hNone : front = [] := by simpa using hLength
        rw [utosStores, if_pos rfl, hNone]
        simp [Outcome.foldl]
      · rw [digits_of_ne_zero hZero, List.length_cons] at hLength
        rcases List.eq_nil_or_concat' front with
          rfl | ⟨before, last, rfl⟩
        · cases hLength
        · rw [List.length_append, List.length_singleton]
            at hLength hBound ⊢
          have hStore :
              storeChar (before ++ [last] ++ done)
                  (before.length, digitChar (n % 10)) =
                .returns
                  (before ++ digitChar (n % 10) :: done) := by
            unfold storeChar
            rw [if_pos (by simp)]
            simp
          have hRest :=
            ih (n / 10) (Nat.div_lt_self
              (Nat.pos_of_ne_zero hZero) (by decide))
              before (digitChar (n % 10) :: done)
              (by omega) (by omega)
          rw [utosStores, if_neg hZero, sizeT_pred hBound,
            Outcome.foldl]
          change
            (storeChar _ (_, digitChar (n % 10))).bind _ = _
          rw [hStore, Outcome.bind_returns, hRest,
            digits_of_ne_zero hZero]
          simp

/- A number of 64 bits has few digits. -/
theorem length_digits_lt
    {n : Nat}
    (hWidth : n < 2 ^ 64) :
    (Nat.digits 10 n).length < 2 ^ 64 := by
  have hFew : (Nat.digits 10 n).length ≤ 20 := by
    rw [Nat.digits_length_le_iff (by decide)]
    omega
  omega

/- What is written are the digits of the number. -/
theorem utos_eq
    {n : Nat}
    (hWidth : n < 2 ^ 64) :
    utos n =
      .returns ((Numeral.write 10 n).map digitChar) := by
  unfold utos Numeral.write
  by_cases hZero : n = 0
  · rw [if_pos hZero, if_pos hZero]
    rfl
  · have hBound := length_digits_lt hWidth
    have hLoop :=
      foldl_utosStores n
        (List.replicate (Nat.digits 10 n).length 0) []
        List.length_replicate
        (by rwa [List.length_replicate])
    rw [List.length_replicate, List.append_nil,
      List.append_nil] at hLoop
    rw [if_neg hZero, if_neg hZero,
      countDigits_eq n 0 (by omega), Nat.zero_add]
    exact hLoop

end Network

------------------------------------------------------------
-- Reading What Is Written
------------------------------------------------------------

namespace Network

section Digits

variable {digit : Nat}

theorem toNat_digitChar (hDigit : digit < 10) :
    (digitChar digit).toNat = digit + 48 := by
  unfold digitChar
  rw [UInt8.toNat_ofNat']
  omega

theorem isDigit_digitChar (hDigit : digit < 10) :
    isDigit (digitChar digit) = true := by
  rw [isDigit_iff, toNat_digitChar hDigit]
  omega

theorem digitValue_digitChar (hDigit : digit < 10) :
    digitValue (digitChar digit) = digit := by
  unfold digitValue
  rw [toNat_digitChar hDigit]
  omega

end Digits

theorem digitChar_digitValue
    {c : UInt8}
    (hDigit : isDigit c = true) :
    digitChar (digitValue c) = c := by
  rw [isDigit_iff] at hDigit
  apply UInt8.toNat_inj.mp
  unfold digitChar digitValue
  rw [UInt8.toNat_ofNat']
  omega

theorem decimalValue_eq (s : Bytes) :
    decimalValue s =
      Numeral.value 10 (s.map digitValue) := by
  unfold decimalValue Numeral.value
  rw [List.foldl_map]

/- The texts of digits with no needless zero, as digits. -/
theorem IsDecimal.canonical
    {s : Bytes}
    (hDecimal : IsDecimal s) :
    Numeral.Canonical 10 (s.map digitValue) := by
  refine ⟨?_, by simpa using hDecimal.nonempty, ?_⟩
  · intro digit hDigit
    rcases List.mem_map.mp hDigit with ⟨c, hMem, rfl⟩
    exact digitValue_lt (hDecimal.digits c hMem)
  · intro hHead
    rw [List.head?_map, Option.map_eq_some_iff] at hHead
    rcases hHead with ⟨c, hFirst, hZero⟩
    have hDigit :=
      hDecimal.digits c (List.mem_of_mem_head? hFirst)
    rw [← digitChar_digitValue hDigit, hZero] at hFirst
    rw [hDecimal.leading hFirst]
    rfl

/- And the digits that are canonical, as texts. -/
theorem isDecimal_of_canonical
    {digits : List Nat}
    (hCanonical : Numeral.Canonical 10 digits) :
    IsDecimal (digits.map digitChar) := by
  refine ⟨by simpa using hCanonical.nonempty, ?_, ?_⟩
  · intro c hMem
    rcases List.mem_map.mp hMem with ⟨digit, hDigit, rfl⟩
    exact isDigit_digitChar (hCanonical.digit_lt digit hDigit)
  · intro hHead
    rw [List.head?_map, Option.map_eq_some_iff] at hHead
    rcases hHead with ⟨digit, hFirst, hZero⟩
    have hDigit :=
      hCanonical.digit_lt digit (List.mem_of_mem_head? hFirst)
    have hValue := digitValue_digitChar hDigit
    rw [hZero] at hValue
    rw [← hValue] at hFirst
    rw [hCanonical.leading hFirst]
    rfl

theorem decimalValue_write (n : Nat) :
    decimalValue ((Numeral.write 10 n).map digitChar) = n := by
  have hCanonical :
      Numeral.Canonical 10 (Numeral.write 10 n) :=
    Numeral.canonical_write (by decide) n
  have hDigits :
      ((Numeral.write 10 n).map digitChar).map digitValue =
        Numeral.write 10 n := by
    rw [List.map_map]
    calc
      (Numeral.write 10 n).map (digitValue ∘ digitChar) =
          (Numeral.write 10 n).map id :=
        List.map_congr_left fun digit hDigit =>
          digitValue_digitChar
            (hCanonical.digit_lt digit hDigit)
      _ = Numeral.write 10 n := List.map_id _
  rw [decimalValue_eq, hDigits, Numeral.value_write]

/- A canonical text is the one that is written. -/
theorem write_decimalValue
    {s : Bytes}
    (hDecimal : IsDecimal s) :
    (Numeral.write 10 (decimalValue s)).map digitChar = s := by
  rw [decimalValue_eq,
    Numeral.write_value (by decide) hDecimal.canonical,
    List.map_map]
  calc
    s.map (digitChar ∘ digitValue) = s.map id :=
      List.map_congr_left fun c hMem =>
        digitChar_digitValue (hDecimal.digits c hMem)
    _ = s := List.map_id s

end Network

------------------------------------------------------------
-- Both Ways
------------------------------------------------------------

namespace Network

/- A number that fits fits the width of a `utos`. -/
theorem lt_width_of_fits
    {n : Nat}
    (hFits : (n : Int) ≤ int64Max) :
    n < 2 ^ 64 := by
  have hMax : int64Max = 9223372036854775807 := rfl
  omega

/- The loop fills each place of the text once. -/
theorem utosStores_eq_range
    {n : Nat}
    (hWidth : n < 2 ^ 64)
    (hNonzero : n ≠ 0) :
    (utosStores n (countDigits n 0)).map Prod.fst =
      (List.range
        ((Numeral.write 10 n).map digitChar).length).reverse := by
  have hBound := length_digits_lt hWidth
  have hLength :
      ((Numeral.write 10 n).map digitChar).length =
        (Nat.digits 10 n).length := by
    rw [Numeral.write, if_neg hNonzero, List.length_map,
      List.length_reverse]
  rw [countDigits_eq n 0 (by omega), Nat.zero_add, hLength]
  exact utosStores_places n hBound

/-
  A number is written as its canonical text, place by place,
  and what an `int64_t` holds is read back: the number from
  its text, and the text from the number that it is read as.
-/
theorem utos_parseUint :
    (∀ n < 2 ^ 64, ∃ text,
      utos n = .returns text ∧
      IsDecimal text ∧
      decimalValue text = n ∧
      (n ≠ 0 →
        (utosStores n (countDigits n 0)).map Prod.fst =
          (List.range text.length).reverse)) ∧
    (∀ n : Nat, (n : Int) ≤ int64Max →
      (utos n).map parseUint = .returns n) ∧
    ∀ s, IsDecimal s → (decimalValue s : Int) ≤ int64Max →
      utos (parseUint s).toNat = .returns s := by
  refine ⟨?_, ?_, ?_⟩
  · intro n hWidth
    exact ⟨_, utos_eq hWidth,
      isDecimal_of_canonical
        (Numeral.canonical_write (by decide) n),
      decimalValue_write n, utosStores_eq_range hWidth⟩
  · intro n hFits
    have hDecimal :=
      isDecimal_of_canonical
        (Numeral.canonical_write (by decide) n)
    have hValue := decimalValue_write n
    rw [utos_eq (lt_width_of_fits hFits), Outcome.map_returns,
      parseUint_of_fits
        ⟨hDecimal.nonempty, hDecimal.digits, by rwa [hValue]⟩,
      hValue]
  · intro s hDecimal hFits
    rw [parseUint_of_fits
        ⟨hDecimal.nonempty, hDecimal.digits, hFits⟩,
      Int.toNat_natCast, utos_eq (lt_width_of_fits hFits),
      write_decimalValue hDecimal]

/- A port. -/
theorem utos_parseUint_port :
    (utos 8080).map parseUint = .returns 8080 :=
  utos_parseUint.2.1 8080 (by decide)

end Network
