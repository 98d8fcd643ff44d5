import XMLHttpRequest.Base.JsFunctions
import XMLHttpRequest.Library.Spelling

/-
  What the encoder and the two decoders of percent-encoded
  text do to each other.

  Key definitions include:
    * `Network.HexDigitOf`
    * `Network.PercentWord`
    * `Network.UriPiece`

  Key theorems include:
    * `Network.percentDecode_of_spells`
    * `Network.decodeURIComponent_of_spells`
    * `Network.decodeURIComponent_encodeURIComponent`
-/

------------------------------------------------------------
-- Hexadecimal Digits
------------------------------------------------------------

namespace Network

open Spelling

def lowerHexDigits : Bytes := ascii "0123456789abcdef"

def upperHexDigits : Bytes := ascii "0123456789ABCDEF"

/- The digit stands for the number, in either case. -/
def HexDigitOf (n : Nat) (digit : UInt8) : Prop :=
  lowerHexDigits[n]? = some digit ∨
    upperHexDigits[n]? = some digit

/- How the sources read one digit. -/
structure ReadsAsHex (n : Nat) (digit : UInt8) : Prop where
  isHexDigit : isHexDigit digit = true
  hexToUint : hexToUint digit = n
  hexValue : hexValue digit = n

instance (n : Nat) (digit : UInt8) :
    Decidable (ReadsAsHex n digit) :=
  decidable_of_iff
    (isHexDigit digit = true ∧ hexToUint digit = n ∧
      hexValue digit = n)
    ⟨fun h => ⟨h.1, h.2.1, h.2.2⟩,
      fun h => ⟨h.1, h.2, h.3⟩⟩

theorem readsAsHex_of_getElem?
    {digits : Bytes}
    (hDigits :
      ∀ pair ∈ digits.zipIdx, ReadsAsHex pair.2 pair.1)
    {n : Nat}
    {digit : UInt8}
    (hDigit : digits[n]? = some digit) :
    ReadsAsHex n digit :=
  hDigits (digit, n)
    (List.mk_mem_zipIdx_iff_getElem?.mpr hDigit)

/- Both decoders agree on what a digit stands for. -/
theorem HexDigitOf.reads
    {n : Nat}
    {digit : UInt8}
    (hDigit : HexDigitOf n digit) :
    ReadsAsHex n digit := by
  rcases hDigit with hLower | hUpper
  · exact readsAsHex_of_getElem? (by decide) hLower
  · exact readsAsHex_of_getElem? (by decide) hUpper

/- The digits that `hexToChar` writes. -/
theorem hexToChar_digits (c : UInt8) :
    lowerHexDigits[c.toNat / 16]? = some (hexToChar c).1 ∧
      lowerHexDigits[c.toNat % 16]? =
        some (hexToChar c).2 := by
  induction c using forall_byte with
  | hBytes n =>
      revert n
      decide +kernel

theorem isHexDigit_iff {c : UInt8} :
    isHexDigit c = true ↔
      (48 ≤ c.toNat ∧ c.toNat ≤ 57) ∨
        (65 ≤ c.toNat ∧ c.toNat ≤ 70) ∨
          (97 ≤ c.toNat ∧ c.toNat ≤ 102) := by
  simp [isHexDigit, isDigit, UInt8.le_iff_toNat_le,
    or_assoc]

/- No digit is a space or a sign. -/
theorem isHexDigit_plain
    (c : UInt8)
    (hDigit : isHexDigit c = true) :
    isSpace c = false ∧ c ≠ 43 ∧ c ≠ 45 := by
  rw [isHexDigit_iff] at hDigit
  refine ⟨?_, ?_, ?_⟩
  · rw [Bool.eq_false_iff]
    intro hSpace
    simp only [isSpace, Bool.or_eq_true, Bool.and_eq_true,
      decide_eq_true_eq, UInt8.le_iff_toNat_le,
      ← UInt8.toNat_inj, UInt8.reduceToNat] at hSpace
    omega
  · rintro rfl
    exact absurd hDigit (by decide)
  · rintro rfl
    exact absurd hDigit (by decide)

theorem hexValue_lt
    (c : UInt8)
    (hDigit : isHexDigit c = true) :
    hexValue c < 16 := by
  rw [isHexDigit_iff] at hDigit
  simp only [hexValue, UInt8.le_iff_toNat_le,
    UInt8.reduceToNat]
  split
  · omega
  · split <;> omega

/- The two digits of a byte make the byte. -/
theorem ofNat_digits (c : UInt8) :
    UInt8.ofNat (c.toNat / 16 * 16 + c.toNat % 16) = c := by
  rw [Nat.div_add_mod']
  exact UInt8.ofNat_toNat

theorem afterSign_other
    {c : UInt8}
    (hPlus : c ≠ 43)
    (hMinus : c ≠ 45)
    (rest : Bytes) :
    afterSign (c :: rest) = (false, c :: rest) := by
  unfold afterSign
  split
  · simp_all
  · simp_all
  · rfl

theorem afterHexPrefix_short
    {s : Bytes}
    (hShort : s.length ≤ 2) :
    afterHexPrefix s = s := by
  unfold afterHexPrefix
  split
  · simp only [List.length_cons] at hShort
    omega
  · rfl

/- `std::stoi` reads two digits as what they stand for. -/
theorem stoiHex_digits
    {first second : UInt8}
    (hFirst : isHexDigit first = true)
    (hSecond : isHexDigit second = true) :
    stoiHex [first, second] =
      .returns
        (hexValue first * 16 + hexValue second : Nat) := by
  rcases isHexDigit_plain first hFirst with
    ⟨hSpace, hPlus, hMinus⟩
  have hSigned := afterSign_other hPlus hMinus [second]
  have hPrefix :
      afterHexPrefix [first, second] = [first, second] :=
    afterHexPrefix_short (by simp)
  have hHigh := hexValue_lt first hFirst
  have hLow := hexValue_lt second hSecond
  unfold stoiHex
  simp only [List.dropWhile_cons, hSpace,
    Bool.false_eq_true, if_false, hSigned, hPrefix,
    List.takeWhile_cons, hFirst, hSecond, if_true,
    List.takeWhile_nil, List.foldl_cons, List.foldl_nil,
    Nat.zero_mul, Nat.zero_add]
  rw [if_neg (by simp), if_neg (by
    simp only [Bool.or_eq_true, decide_eq_true_eq]
    omega)]

theorem stringToHex_digits
    {c first second : UInt8}
    (hFirst : ReadsAsHex (c.toNat / 16) first)
    (hSecond : ReadsAsHex (c.toNat % 16) second) :
    stringToHex [first, second] = .returns c := by
  have hByte := c.toNat_lt
  unfold stringToHex
  rw [stoiHex_digits hFirst.isHexDigit hSecond.isHexDigit,
    Outcome.map_returns, hFirst.hexValue, hSecond.hexValue,
    Nat.div_add_mod']
  congr 1
  have hSmall :
      ((c.toNat : Int) % 2 ^ 8).toNat = c.toNat := by
    omega
  rw [hSmall]
  exact UInt8.ofNat_toNat

end Network

------------------------------------------------------------
-- Percent-Encoded Texts
------------------------------------------------------------

namespace Network

open Spelling

/-
  What may be written for a byte: the byte itself, unless it
  is a percent sign, or an escape with its two digits.
-/
inductive PercentWord : UInt8 → Bytes → Prop
  | literal {c : UInt8} :
      c ≠ 37 →
      PercentWord c [c]
  | escape {c first second : UInt8} :
      HexDigitOf (c.toNat / 16) first →
      HexDigitOf (c.toNat % 16) second →
      PercentWord c [37, first, second]

/- The text is a percent-encoding of the bytes. -/
abbrev PercentEncodes (bytes encoded : Bytes) : Prop :=
  Spells PercentWord bytes encoded

theorem percentDecode_literal
    {c : UInt8}
    (hLiteral : c ≠ 37)
    (rest : Bytes) :
    percentDecode (c :: rest) = c :: percentDecode rest := by
  rw [percentDecode]
  intro first second tail hPercent
  exact absurd hPercent hLiteral

theorem percentDecode_escape
    {c first second : UInt8}
    (hFirst : ReadsAsHex (c.toNat / 16) first)
    (hSecond : ReadsAsHex (c.toNat % 16) second)
    (rest : Bytes) :
    percentDecode (37 :: first :: second :: rest) =
      c :: percentDecode rest := by
  rw [percentDecode, hFirst.isHexDigit, hSecond.isHexDigit,
    hFirst.hexToUint, hSecond.hexToUint,
    Nat.shiftLeft_eq]
  simp only [Bool.and_self, if_true]
  rw [ofNat_digits c]

/- `percentDecode` reads one word after another. -/
theorem percentDecode_word
    {c : UInt8}
    {written : Bytes}
    (rest : Bytes)
    (hWord : PercentWord c written) :
    percentDecode (written ++ rest) =
      c :: percentDecode rest := by
  cases hWord with
  | literal hLiteral =>
      exact percentDecode_literal hLiteral rest
  | escape hFirst hSecond =>
      exact percentDecode_escape hFirst.reads hSecond.reads
        rest

theorem percentDecode_of_spells
    {bytes encoded : Bytes}
    (hSpells : PercentEncodes bytes encoded) :
    percentDecode encoded = bytes := by
  have hRead :=
    Spells.fold percentDecode List.cons
      (fun _ _ rest hWord => percentDecode_word rest hWord)
      hSpells
  rw [hRead]
  exact List.foldr_cons_nil

end Network

------------------------------------------------------------
-- The Iterator Loop
------------------------------------------------------------

namespace Network

open Spelling

/- Put one decoded byte before the others. -/
abbrev pushFront
    (c : UInt8)
    (rest : Outcome StdException Bytes) :
    Outcome StdException Bytes :=
  rest.map (c :: ·)

@[simp]
theorem foldr_pushFront (bytes : Bytes) :
    bytes.foldr pushFront (.returns []) =
      .returns bytes := by
  induction bytes with
  | nil => rfl
  | cons c bytes ih =>
      rw [List.foldr_cons, ih]
      rfl

theorem decodeURIComponent_literal
    {c : UInt8}
    (hLiteral : c ≠ 37)
    (hPlus : c ≠ 43)
    (rest : Bytes) :
    decodeURIComponent (c :: rest) =
      pushFront c (decodeURIComponent rest) := by
  rw [decodeURIComponent.eq_def]
  simp only [if_neg hLiteral, if_neg hPlus]

theorem decodeURIComponent_plus (rest : Bytes) :
    decodeURIComponent (43 :: rest) =
      pushFront 32 (decodeURIComponent rest) := by
  rw [decodeURIComponent.eq_def]
  rfl

theorem decodeURIComponent_escape
    {c first second : UInt8}
    (hFirst : ReadsAsHex (c.toNat / 16) first)
    (hSecond : ReadsAsHex (c.toNat % 16) second)
    (rest : Bytes) :
    decodeURIComponent (37 :: first :: second :: rest) =
      pushFront c (decodeURIComponent rest) := by
  rw [decodeURIComponent, if_pos rfl]
  simp only [stringToHex_digits hFirst hSecond,
    Outcome.bind_returns]

/- Without a plus the loop reads one word after another. -/
theorem decodeURIComponent_word
    {c : UInt8}
    {written : Bytes}
    (rest : Bytes)
    (hWord : PercentWord c written)
    (hPlus : 43 ∉ written) :
    decodeURIComponent (written ++ rest) =
      pushFront c (decodeURIComponent rest) := by
  cases hWord with
  | literal hLiteral =>
      have hOther : c ≠ 43 := by
        rintro rfl
        exact hPlus List.mem_cons_self
      exact decodeURIComponent_literal hLiteral hOther rest
  | escape hFirst hSecond =>
      exact decodeURIComponent_escape hFirst.reads
        hSecond.reads rest

theorem decodeURIComponent_of_spells
    {bytes encoded : Bytes}
    (hSpells : PercentEncodes bytes encoded)
    (hPlus : 43 ∉ encoded) :
    decodeURIComponent encoded = .returns bytes := by
  have hPlain :
      Spells (fun c written =>
          PercentWord c written ∧ 43 ∉ written)
        bytes encoded := by
    apply hSpells.mono
    intro c written hInfix hWord
    exact ⟨hWord, fun hMem => hPlus (hInfix.mem hMem)⟩
  have hRead :=
    Spells.fold decodeURIComponent pushFront
      (fun _ _ rest hWord =>
        decodeURIComponent_word rest hWord.1 hWord.2)
      hPlain
  rw [hRead]
  exact foldr_pushFront bytes

/- Both decoders undo every percent-encoding. -/
theorem percentDecode_of_percentEncodes
    {bytes encoded : Bytes}
    (hEncodes : PercentEncodes bytes encoded) :
    percentDecode encoded = bytes ∧
      (43 ∉ encoded →
        decodeURIComponent encoded = .returns bytes) :=
  ⟨percentDecode_of_spells hEncodes,
    decodeURIComponent_of_spells hEncodes⟩

/- `%2b` and a literal letter, with digits in both cases. -/
theorem percentDecode_of_percentEncodes_mixed :
    percentDecode (ascii "%2b%2Ba%25") = ascii "++a%" ∧
      (43 ∉ ascii "%2b%2Ba%25" →
        decodeURIComponent (ascii "%2b%2Ba%25") =
          .returns (ascii "++a%")) := by
  have hLower : PercentWord 43 [37, 50, 98] :=
    .escape (.inl (by decide)) (.inl (by decide))
  have hUpper : PercentWord 43 [37, 50, 66] :=
    .escape (.inl (by decide)) (.inr (by decide))
  have hLetter : PercentWord 97 [97] :=
    .literal (by decide)
  have hPercent : PercentWord 37 [37, 50, 53] :=
    .escape (.inl (by decide)) (.inl (by decide))
  exact percentDecode_of_percentEncodes
    (.cons hLower (.cons hUpper
      (.cons hLetter (.cons hPercent .nil))))

end Network

------------------------------------------------------------
-- The Encoder
------------------------------------------------------------

namespace Network

open Spelling

/- What `encodeURIComponent` writes. -/
inductive UriPiece : Bytes → Prop
  | unescaped {c : UInt8} :
      leftUnescaped c = true →
      UriPiece [c]
  | plus : UriPiece [43]
  | escape {first second : UInt8} :
      first ∈ lowerHexDigits →
      second ∈ lowerHexDigits →
      UriPiece [37, first, second]

theorem encodeUriChar_piece (c : UInt8) :
    UriPiece (encodeUriChar c) := by
  unfold encodeUriChar
  by_cases hLeft : leftUnescaped c = true
  · rw [if_pos hLeft]
    exact .unescaped hLeft
  · rw [if_neg hLeft]
    by_cases hSpace : c = 32
    · rw [if_pos hSpace]
      exact .plus
    · rw [if_neg hSpace]
      exact .escape
        (List.mem_of_getElem? (hexToChar_digits c).1)
        (List.mem_of_getElem? (hexToChar_digits c).2)

/- The decoder reads back what is written for a character. -/
theorem decodeURIComponent_encodeUriChar
    (c : UInt8)
    (rest : Bytes) :
    decodeURIComponent (encodeUriChar c ++ rest) =
      pushFront c (decodeURIComponent rest) := by
  have hReserved :
      leftUnescaped 37 = false ∧
        leftUnescaped 43 = false := by
    decide
  unfold encodeUriChar
  by_cases hLeft : leftUnescaped c = true
  · rw [if_pos hLeft]
    refine decodeURIComponent_literal ?_ ?_ rest
    · rintro rfl
      exact absurd hLeft (by rw [hReserved.1]; decide)
    · rintro rfl
      exact absurd hLeft (by rw [hReserved.2]; decide)
  · rw [if_neg hLeft]
    by_cases hSpace : c = 32
    · rw [if_pos hSpace, hSpace]
      exact decodeURIComponent_plus rest
    · rw [if_neg hSpace]
      exact decodeURIComponent_escape
        (HexDigitOf.reads (.inl (hexToChar_digits c).1))
        (HexDigitOf.reads (.inl (hexToChar_digits c).2))
        rest

/- Decoding undoes encoding, which writes only its pieces. -/
theorem decodeURIComponent_encodeURIComponent (s : Bytes) :
    decodeURIComponent (encodeURIComponent s) = .returns s ∧
      ∃ pieces : List Bytes,
        pieces.flatten = encodeURIComponent s ∧
          ∀ piece ∈ pieces, UriPiece piece := by
  have hSpells :
      Spells (fun c written => encodeUriChar c = written) s
        (encodeURIComponent s) :=
    spells_flatMap encodeUriChar (fun _ => rfl) s
  constructor
  · have hRead :=
      Spells.fold decodeURIComponent pushFront
        (fun c _ rest hWord => by
          rw [← hWord]
          exact decodeURIComponent_encodeUriChar c rest)
        hSpells
    rw [hRead]
    exact foldr_pushFront s
  · rcases hSpells.pieces with ⟨pieces, hText, hPieces⟩
    refine ⟨pieces, hText, ?_⟩
    intro piece hPiece
    rcases hPieces piece hPiece with ⟨c, rfl⟩
    exact encodeUriChar_piece c

end Network
