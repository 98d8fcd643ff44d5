import Mathlib.Data.List.TakeWhile
import XMLHttpRequest.Base.Bytes

/-
  The helpers of `session_utils` (sessionutil.h).

  Key definitions include:
    * `Network.parseUintDigits`
    * `Network.parseUint`
    * `Network.percentDecode`
    * `Network.checkH2IsSelected`
    * `Network.tlsH2Negotiated`

  Key theorems include:
    * `Network.parseUintDigits_of_fits`
    * `Network.parseUint_of_fits`
-/

------------------------------------------------------------
-- Decimal Numbers
------------------------------------------------------------

namespace Network

/- `std::numeric_limits<int64_t>::max()` -/
def int64Max : Int := 2 ^ 63 - 1

/- The number a digit stands for: `c - '0'`. -/
def digitValue (c : UInt8) : Nat :=
  c.toNat - 48

/-
  The scan of `parse_uint_digits`: `n` is the value and `i`
  the number of the digits read so far.
-/
def parseUintLoop : Bytes → Int → Nat → Int × Nat
  | [], n, i => if i = 0 then (-1, 0) else (n, i)
  | c :: s, n, i =>
      if isDigit c then
        if n > int64Max / 10 then
          (-1, 0)
        else if n * 10 > int64Max - digitValue c then
          (-1, 0)
        else
          parseUintLoop s (n * 10 + digitValue c) (i + 1)
      else
        if i = 0 then (-1, 0) else (n, i)

/- `parse_uint_digits` -/
def parseUintDigits (s : Bytes) : Int × Nat :=
  if s.length = 0 then (-1, 0) else parseUintLoop s 0 0

/- `parse_uint` -/
def parseUint (s : Bytes) : Int :=
  let (n, i) := parseUintDigits s
  if n = -1 || i ≠ s.length then -1 else n

/- The value of a string of decimal digits. -/
def decimalValue (s : Bytes) : Nat :=
  s.foldl (fun n c => n * 10 + digitValue c) 0

/- A value only grows by reading more digits. -/
theorem le_foldl_digits
    (s : Bytes)
    (n : Nat) :
    n ≤ s.foldl (fun n c => n * 10 + digitValue c) n := by
  induction s generalizing n with
  | nil => simp
  | cons c s ih =>
      have hStep : n ≤ n * 10 + digitValue c := by omega
      exact hStep.trans (ih _)

theorem digitValue_lt
    {c : UInt8}
    (hDigit : isDigit c = true) :
    digitValue c < 10 := by
  rw [isDigit_iff] at hDigit
  unfold digitValue
  omega

theorem decimalValue_lt
    {s : Bytes}
    (hDigits : ∀ c ∈ s, isDigit c = true) :
    decimalValue s < 10 ^ s.length := by
  have hBound :=
    foldl_numeral_lt s
      (fun c hC => digitValue_lt (hDigits c hC)) 0
  simpa [decimalValue] using hBound

/- Digits of a number that an `int64_t` can hold. -/
structure FitsInt64 (s : Bytes) : Prop where
  nonempty : s ≠ []
  digits : ∀ c ∈ s, isDigit c = true
  fits : (decimalValue s : Int) ≤ int64Max

end Network

------------------------------------------------------------
-- The Scan of the Digits
------------------------------------------------------------

namespace Network

variable {s : Bytes}
variable {c : UInt8}

/-
  The two tests before a digit is taken ask whether the number
  with that digit fits, and neither exceeds what fits itself.
-/
theorem parseUintLoop_digit
    (hDigit : isDigit c = true)
    (n i : Nat) :
    parseUintLoop (c :: s) n i =
      if ((n * 10 + digitValue c : Nat) : Int) ≤ int64Max then
        parseUintLoop s (n * 10 + digitValue c : Nat) (i + 1)
      else (-1, 0) := by
  have hMax : int64Max = 9223372036854775807 := rfl
  have hLast := digitValue_lt hDigit
  rw [parseUintLoop, if_pos hDigit]
  push_cast
  by_cases hFits :
      (n : Int) * 10 + digitValue c ≤ int64Max
  · have hSmall : ¬ (n : Int) > int64Max / 10 := by omega
    have hRoom :
        ¬ (n : Int) * 10 > int64Max - digitValue c := by
      omega
    rw [if_neg hSmall, if_neg hRoom, if_pos hFits]
  · rw [if_neg hFits]
    by_cases hLarge : (n : Int) > int64Max / 10
    · rw [if_pos hLarge]
    · rw [if_neg hLarge, if_pos (by omega)]

/- The scan stops where no digit comes next. -/
theorem parseUintLoop_stop
    (hStop : s.takeWhile isDigit = [])
    (n : Int)
    (i : Nat) :
    parseUintLoop s n i =
      if i = 0 then (-1, 0) else (n, i) := by
  cases s with
  | nil => rfl
  | cons c s =>
      have hOther : ¬ isDigit c = true := by
        intro hDigit
        rw [List.takeWhile_cons_of_pos hDigit] at hStop
        cases hStop
      rw [parseUintLoop, if_neg hOther]

/- A value that fits fits at each digit before. -/
theorem parseUintLoop_of_le
    (s : Bytes)
    (n i : Nat)
    {total : Nat}
    (hTotal :
      (s.takeWhile isDigit).foldl
        (fun n c => n * 10 + digitValue c) n = total)
    (hFits : (total : Int) ≤ int64Max)
    (hSome : i + (s.takeWhile isDigit).length ≠ 0) :
    parseUintLoop s n i =
      ((total : Int), i + (s.takeWhile isDigit).length) := by
  induction s generalizing n i with
  | nil =>
      rw [parseUintLoop_stop List.takeWhile_nil,
        if_neg (by simpa using hSome), ← hTotal]
      rfl
  | cons c s ih =>
      by_cases hDigit : isDigit c = true
      · rw [List.takeWhile_cons_of_pos hDigit] at hTotal ⊢
        have hGrows :=
          le_foldl_digits (s.takeWhile isDigit)
            (n * 10 + digitValue c)
        have hNext :
            ((n * 10 + digitValue c : Nat) : Int) ≤
              int64Max := by
          rw [List.foldl_cons] at hTotal
          omega
        rw [parseUintLoop_digit hDigit, if_pos hNext,
          ih _ _ hTotal (by omega), List.length_cons]
        congr 1
        omega
      · have hNone : (c :: s).takeWhile isDigit = [] :=
          List.takeWhile_cons_of_neg hDigit
        rw [hNone] at hTotal hSome ⊢
        rw [parseUintLoop_stop hNone,
          if_neg (by simpa using hSome), ← hTotal]
        rfl

/- A value too large is seen at the first digit that is. -/
theorem parseUintLoop_of_lt
    (s : Bytes)
    (n i : Nat)
    (hSmall : (n : Int) ≤ int64Max)
    (hLarge :
      int64Max <
        ((s.takeWhile isDigit).foldl
          (fun n c => n * 10 + digitValue c) n : Nat)) :
    parseUintLoop s n i = (-1, 0) := by
  induction s generalizing n i with
  | nil => exact absurd hSmall (Int.not_le.mpr hLarge)
  | cons c s ih =>
      by_cases hDigit : isDigit c = true
      · rw [List.takeWhile_cons_of_pos hDigit,
          List.foldl_cons] at hLarge
        rw [parseUintLoop_digit hDigit]
        by_cases hNext :
            ((n * 10 + digitValue c : Nat) : Int) ≤ int64Max
        · rw [if_pos hNext]
          exact ih _ _ hNext hLarge
        · rw [if_neg hNext]
      · rw [List.takeWhile_cons_of_neg hDigit] at hLarge
        exact absurd hSmall (Int.not_le.mpr hLarge)

end Network

------------------------------------------------------------
-- What Is Parsed
------------------------------------------------------------

namespace Network

variable {s : Bytes}

/- The text in front of the first character that is none. -/
theorem takeWhile_isDigit
    (hDigits : ∀ c ∈ s, isDigit c = true) :
    s.takeWhile isDigit = s :=
  List.takeWhile_eq_self_iff.mpr hDigits

theorem parseUintDigits_of_fits
    (hFits : FitsInt64 (s.takeWhile isDigit)) :
    parseUintDigits s =
      ((decimalValue (s.takeWhile isDigit) : Int),
        (s.takeWhile isDigit).length) := by
  have hLength : 0 < (s.takeWhile isDigit).length :=
    List.length_pos_iff.mpr hFits.nonempty
  have hText : s.length ≠ 0 := by
    have hPrefix := (s.takeWhile_prefix isDigit).length_le
    omega
  have hLoop :=
    parseUintLoop_of_le s 0 0 rfl hFits.fits (by omega)
  unfold parseUintDigits
  rw [if_neg hText, ← Nat.zero_add (s.takeWhile isDigit).length]
  exact hLoop

theorem parseUintDigits_of_not_fits
    (hUnfit : ¬ FitsInt64 (s.takeWhile isDigit)) :
    parseUintDigits s = (-1, 0) := by
  unfold parseUintDigits
  by_cases hText : s.length = 0
  · rw [if_pos hText]
  · rw [if_neg hText]
    by_cases hNone : s.takeWhile isDigit = []
    · rw [parseUintLoop_stop hNone, if_pos rfl]
    · have hLarge :
          int64Max <
            (decimalValue (s.takeWhile isDigit) : Int) := by
        by_contra hFits
        exact hUnfit
          ⟨hNone, fun c hc => List.mem_takeWhile_imp hc,
            Int.not_lt.mp hFits⟩
      exact parseUintLoop_of_lt s 0 0 (by decide) hLarge

/- Digits whose value fits are parsed to that value. -/
theorem parseUint_of_fits
    (hFits : FitsInt64 s) :
    parseUint s = decimalValue s := by
  have hAll := takeWhile_isDigit hFits.digits
  have hDigits :=
    parseUintDigits_of_fits (s := s) (by rwa [hAll])
  rw [hAll] at hDigits
  have hNatural : ((decimalValue s : Nat) : Int) ≠ -1 := by
    omega
  unfold parseUint
  rw [hDigits]
  simp [hNatural]

/- A text that is not such a number is told by its length. -/
theorem parseUint_of_not_fits
    (hUnfit : ¬ FitsInt64 s) :
    parseUint s = -1 := by
  unfold parseUint
  by_cases hFits : FitsInt64 (s.takeWhile isDigit)
  · have hShort : (s.takeWhile isDigit).length ≠ s.length := by
      intro hLength
      have hAll :=
        (s.takeWhile_prefix isDigit).eq_of_length hLength
      rw [hAll] at hFits
      exact hUnfit hFits
    rw [parseUintDigits_of_fits hFits]
    simp [hShort]
  · rw [parseUintDigits_of_not_fits hFits]
    rfl

end Network

------------------------------------------------------------
-- Percent Decoding
------------------------------------------------------------

namespace Network

/- `is_hex_digit` -/
def isHexDigit (c : UInt8) : Bool :=
  isDigit c || (65 ≤ c && c ≤ 70) || (97 ≤ c && c ≤ 102)

/- `hex_to_uint` -/
def hexToUint (c : UInt8) : Nat :=
  let n := signedChar c
  if n ≤ 57 then toUint32 (n - 48)
  else if n ≤ 90 then toUint32 (n - 65 + 10)
  else if n ≤ 122 then toUint32 (n - 97 + 10)
  else 256

/- `percent_decode` -/
def percentDecode : Bytes → Bytes
  | 37 :: first :: second :: rest =>
      if isHexDigit first && isHexDigit second then
        UInt8.ofNat
            ((hexToUint first <<< 4) + hexToUint second) ::
          percentDecode rest
      else 37 :: percentDecode (first :: second :: rest)
  | c :: rest => c :: percentDecode rest
  | [] => []

end Network

------------------------------------------------------------
-- Negotiated Protocol
------------------------------------------------------------

namespace Network

/- `session_utils::NGHTTP2_H2` and the two draft names. -/
def nghttp2H2 : Bytes := ascii "h2"
def nghttp2H216 : Bytes := ascii "h2-16"
def nghttp2H214 : Bytes := ascii "h2-14"

/- `check_h2_is_selected` -/
def checkH2IsSelected (proto : Bytes) : Bool :=
  nghttp2H2 = proto || nghttp2H216 = proto ||
    nghttp2H214 = proto

/-
  `tls_h2_negotiated`: the protocol of NPN, else the one of
  ALPN; `none` where OpenSSL leaves the pointer null.
-/
def negotiatedProtocol
    (npn alpn : Option Bytes) : Option Bytes :=
  match npn with
  | some proto => some proto
  | none => alpn

def tlsH2Negotiated (npn alpn : Option Bytes) : Bool :=
  match negotiatedProtocol npn alpn with
  | none => false
  | some proto => checkH2IsSelected proto

end Network
