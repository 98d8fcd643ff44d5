import Mathlib.Logic.Basic

/-
  Base64 over an arbitrary alphabet: bytes in groups of three
  as characters in groups of four.

  Key definitions include:
    * `Base64.encode`
    * `Base64.Canonical`
    * `Base64.read`

  Key theorems include:
    * `Base64.canonical_iff`
    * `Base64.read_encode`
    * `Base64.encode_ends`
-/

------------------------------------------------------------
-- Encoding
------------------------------------------------------------

namespace Base64

variable {α : Type}

/- The four numbers below 64 that three bytes fall into. -/
def sextet1 (x : UInt8) : Nat := x.toNat / 4
def sextet2 (x y : UInt8) : Nat :=
  x.toNat % 4 * 16 + y.toNat / 16
def sextet3 (y z : UInt8) : Nat :=
  y.toNat % 16 * 4 + z.toNat / 64
def sextet4 (z : UInt8) : Nat := z.toNat % 64

/- The text of a byte array, padded to whole groups. -/
def encode (char : Nat → α) (pad : α) : List UInt8 → List α
  | [] => []
  | [x] => [char (sextet1 x), char (sextet2 x 0), pad, pad]
  | [x, y] =>
      [ char (sextet1 x), char (sextet2 x y),
        char (sextet3 y 0), pad ]
  | x :: y :: z :: rest =>
      char (sextet1 x) :: char (sextet2 x y) ::
        char (sextet3 y z) :: char (sextet4 z) ::
          encode char pad rest

/-
  Padded texts: groups of four characters, the last of which
  may end with one or two pads that follow no unused bits.
-/
inductive Canonical (char : Nat → α) (pad : α) :
    List α → Prop
  | nil : Canonical char pad []
  | twoPads {i r : Nat} :
      i < 64 → r < 64 → r % 16 = 0 →
      Canonical char pad [char i, char r, pad, pad]
  | onePad {i r o : Nat} :
      i < 64 → r < 64 → o < 64 → o % 4 = 0 →
      Canonical char pad [char i, char r, char o, pad]
  | group {i r o a : Nat} {text : List α} :
      i < 64 → r < 64 → o < 64 → a < 64 →
      Canonical char pad text →
      Canonical char pad
        (char i :: char r :: char o :: char a :: text)

/- The last character is a pad and the one before is not. -/
def EndsInOnePad (pad : α) (text : List α) : Prop :=
  ∃ front last, text = front ++ [last, pad] ∧ last ≠ pad

end Base64

------------------------------------------------------------
-- Canonical Texts
------------------------------------------------------------

namespace Base64

variable {α : Type} {char : Nat → α} {pad : α}

theorem sextet1_lt (x : UInt8) : sextet1 x < 64 := by
  have hByte := x.toNat_lt
  unfold sextet1
  omega

theorem sextet2_lt (x y : UInt8) : sextet2 x y < 64 := by
  have hByte := y.toNat_lt
  unfold sextet2
  omega

theorem sextet3_lt (y z : UInt8) : sextet3 y z < 64 := by
  have hByte := z.toNat_lt
  unfold sextet3
  omega

theorem sextet4_lt (z : UInt8) : sextet4 z < 64 :=
  Nat.mod_lt _ (by decide)

/- An encoded text is canonical. -/
theorem canonical_encode (bytes : List UInt8) :
    Canonical char pad (encode char pad bytes) := by
  induction bytes using encode.induct with
  | case1 => exact .nil
  | case2 x =>
      refine .twoPads (sextet1_lt x) (sextet2_lt x 0) ?_
      simp [sextet2]
  | case3 x y =>
      refine .onePad (sextet1_lt x) (sextet2_lt x y)
        (sextet3_lt y 0) ?_
      simp [sextet3]
  | case4 x y z rest ih =>
      exact .group (sextet1_lt x) (sextet2_lt x y)
        (sextet3_lt y z) (sextet4_lt z) ih

/- The bytes of a group, from its sextets. -/
def byte1 (i r : Nat) : UInt8 := UInt8.ofNat (i * 4 + r / 16)

def byte2 (r o : Nat) : UInt8 :=
  UInt8.ofNat (r % 16 * 16 + o / 4)

def byte3 (o a : Nat) : UInt8 := UInt8.ofNat (o % 4 * 64 + a)

section

variable {i r o a : Nat}

theorem byte1_toNat (hI : i < 64) (hR : r < 64) :
    (byte1 i r).toNat = i * 4 + r / 16 :=
  UInt8.toNat_ofNat_of_lt' (by simp only [UInt8.size]; omega)

theorem byte2_toNat (hO : o < 64) :
    (byte2 r o).toNat = r % 16 * 16 + o / 4 :=
  UInt8.toNat_ofNat_of_lt' (by simp only [UInt8.size]; omega)

theorem byte3_toNat (hA : a < 64) :
    (byte3 o a).toNat = o % 4 * 64 + a :=
  UInt8.toNat_ofNat_of_lt' (by simp only [UInt8.size]; omega)

/- No bits are left for the bytes that pads stand for. -/
theorem byte2_zero (hUnused : r % 16 = 0) :
    byte2 r 0 = 0 := by
  rw [byte2, hUnused]
  rfl

theorem byte3_zero (hUnused : o % 4 = 0) :
    byte3 o 0 = 0 := by
  rw [byte3, hUnused]
  rfl

/- The sextets of the bytes are those they come from. -/
theorem sextet1_byte1 (hI : i < 64) (hR : r < 64) :
    sextet1 (byte1 i r) = i := by
  rw [sextet1, byte1_toNat hI hR]
  omega

theorem sextet2_bytes
    (hI : i < 64)
    (hR : r < 64)
    (hO : o < 64) :
    sextet2 (byte1 i r) (byte2 r o) = r := by
  rw [sextet2, byte1_toNat hI hR, byte2_toNat hO]
  omega

theorem sextet3_bytes (hO : o < 64) (hA : a < 64) :
    sextet3 (byte2 r o) (byte3 o a) = o := by
  rw [sextet3, byte2_toNat hO, byte3_toNat hA]
  omega

theorem sextet4_byte3 (hA : a < 64) :
    sextet4 (byte3 o a) = a := by
  rw [sextet4, byte3_toNat hA]
  omega

end

/- A canonical text is the encoding of some bytes. -/
theorem Canonical.exists_encode
    {text : List α}
    (hCanonical : Canonical char pad text) :
    ∃ bytes, encode char pad bytes = text := by
  induction hCanonical with
  | nil => exact ⟨[], rfl⟩
  | @twoPads i r hI hR hUnused =>
      refine ⟨[byte1 i r], ?_⟩
      rw [encode, sextet1_byte1 hI hR, ← byte2_zero hUnused,
        sextet2_bytes hI hR (by decide)]
  | @onePad i r o hI hR hO hUnused =>
      refine ⟨[byte1 i r, byte2 r o], ?_⟩
      rw [encode, sextet1_byte1 hI hR,
        sextet2_bytes hI hR hO, ← byte3_zero hUnused,
        sextet3_bytes hO (by decide)]
  | @group i r o a text hI hR hO hA _ ih =>
      rcases ih with ⟨bytes, hText⟩
      refine
        ⟨byte1 i r :: byte2 r o :: byte3 o a :: bytes, ?_⟩
      rw [encode, sextet1_byte1 hI hR,
        sextet2_bytes hI hR hO, sextet3_bytes hO hA,
        sextet4_byte3 hA, hText]

theorem canonical_iff (text : List α) :
    Canonical char pad text ↔
      ∃ bytes, encode char pad bytes = text := by
  constructor
  · exact Canonical.exists_encode
  · rintro ⟨bytes, rfl⟩
    exact canonical_encode bytes

end Base64

------------------------------------------------------------
-- Decoding
------------------------------------------------------------

namespace Base64

variable {α : Type}

/- The bytes of four characters that are no pads. -/
def readGroup
    (index : α → Option Nat)
    (a b c d : α) : Option (List UInt8) := do
  let i ← index a
  let r ← index b
  let o ← index c
  let s ← index d
  return [byte1 i r, byte2 r o, byte3 o s]

/- The bytes of the last four characters. -/
def readLast
    [DecidableEq α]
    (index : α → Option Nat)
    (pad a b c d : α) : Option (List UInt8) := do
  let i ← index a
  let r ← index b
  if d ≠ pad then readGroup index a b c d
  else if c = pad then return [byte1 i r]
  else
    let o ← index c
    return [byte1 i r, byte2 r o]

/- The bytes that a padded text stands for. -/
def read
    [DecidableEq α]
    (index : α → Option Nat)
    (pad : α) : List α → Option (List UInt8)
  | [] => some []
  | [a, b, c, d] => readLast index pad a b c d
  | a :: b :: c :: d :: rest => do
      let bytes ← readGroup index a b c d
      let others ← read index pad rest
      return bytes ++ others
  | _ => none

/- The bytes of a group come back from its sextets. -/
theorem byte1_sextets (x y : UInt8) :
    byte1 (sextet1 x) (sextet2 x y) = x := by
  have hX := x.toNat_lt
  have hY := y.toNat_lt
  rw [← UInt8.toNat_inj,
    byte1_toNat (sextet1_lt x) (sextet2_lt x y)]
  unfold sextet1 sextet2
  omega

theorem byte2_sextets (x y z : UInt8) :
    byte2 (sextet2 x y) (sextet3 y z) = y := by
  have hY := y.toNat_lt
  have hZ := z.toNat_lt
  rw [← UInt8.toNat_inj, byte2_toNat (sextet3_lt y z)]
  unfold sextet2 sextet3
  omega

theorem byte3_sextets (y z : UInt8) :
    byte3 (sextet3 y z) (sextet4 z) = z := by
  have hZ := z.toNat_lt
  rw [← UInt8.toNat_inj, byte3_toNat (sextet4_lt z)]
  unfold sextet3 sextet4
  omega

variable {char : Nat → α} {pad : α}
variable {index : α → Option Nat}

theorem readGroup_sextets
    (hIndex : ∀ n < 64, index (char n) = some n)
    (x y z : UInt8) :
    readGroup index (char (sextet1 x)) (char (sextet2 x y))
        (char (sextet3 y z)) (char (sextet4 z)) =
      some [x, y, z] := by
  simp only [readGroup, hIndex _ (sextet1_lt x),
    hIndex _ (sextet2_lt x y), hIndex _ (sextet3_lt y z),
    hIndex _ (sextet4_lt z), Option.bind_eq_bind,
    Option.bind_some, byte1_sextets, byte2_sextets,
    byte3_sextets, Option.pure_def]

/- Reading undoes encoding. -/
theorem read_encode
    [DecidableEq α]
    (hIndex : ∀ n < 64, index (char n) = some n)
    (hPad : ∀ n < 64, char n ≠ pad)
    (bytes : List UInt8) :
    read index pad (encode char pad bytes) = some bytes := by
  induction bytes using encode.induct with
  | case1 => rfl
  | case2 x =>
      simp only [encode, read, readLast,
        hIndex _ (sextet1_lt x), hIndex _ (sextet2_lt x 0),
        Option.bind_eq_bind, Option.bind_some, ne_eq,
        not_true, if_false, if_true, byte1_sextets,
        Option.pure_def]
  | case3 x y =>
      simp only [encode, read, readLast,
        hIndex _ (sextet1_lt x), hIndex _ (sextet2_lt x y),
        hIndex _ (sextet3_lt y 0), Option.bind_eq_bind,
        Option.bind_some, ne_eq, not_true, if_false,
        hPad _ (sextet3_lt y 0), byte1_sextets,
        byte2_sextets, Option.pure_def]
  | case4 x y z rest ih =>
      cases hRest : encode char pad rest with
      | nil =>
          rw [hRest, read, Option.some.injEq] at ih
          subst ih
          simp only [encode, read, readLast,
            hIndex _ (sextet1_lt x),
            hIndex _ (sextet2_lt x y), Option.bind_eq_bind,
            Option.bind_some, ne_eq, hPad _ (sextet4_lt z),
            not_false_eq_true, if_true,
            readGroup_sextets hIndex]
      | cons c text =>
          rw [encode, hRest, read.eq_3 _ _ _ _ _ _ _ (by simp),
            ← hRest, readGroup_sextets hIndex, ih]
          rfl

end Base64

------------------------------------------------------------
-- Padding
------------------------------------------------------------

namespace Base64

variable {α : Type} {char : Nat → α} {pad : α}

/- How many pads a text ends in is the number of bytes left. -/
theorem encode_ends
    (hPad : ∀ n < 64, char n ≠ pad)
    {bytes : List UInt8}
    (hSome : bytes ≠ []) :
    ∃ front c d, encode char pad bytes = front ++ [c, d] ∧
      (c = pad ↔ bytes.length % 3 = 1) ∧
      (d = pad ↔ bytes.length % 3 ≠ 0) := by
  induction bytes using encode.induct with
  | case1 => exact absurd rfl hSome
  | case2 x =>
      refine ⟨[_, _], pad, pad, rfl, by simp, by simp⟩
  | case3 x y =>
      refine ⟨[_, _], _, pad, rfl, ?_, by simp⟩
      simp [hPad _ (sextet3_lt y 0)]
  | case4 x y z rest ih =>
      by_cases hRest : rest = []
      · subst hRest
        refine ⟨[_, _], _, _, rfl, ?_, ?_⟩
        · simp [hPad _ (sextet3_lt y z)]
        · simp [hPad _ (sextet4_lt z)]
      · rcases ih hRest with ⟨front, c, d, hText, hC, hD⟩
        refine ⟨char (sextet1 x) :: char (sextet2 x y) ::
          char (sextet3 y z) :: char (sextet4 z) :: front,
          c, d, ?_, ?_, ?_⟩
        · rw [encode, hText]
          rfl
        · rw [hC]
          simp only [List.length_cons]
          omega
        · rw [hD]
          simp only [List.length_cons]
          omega

/- Two bytes left over are what one pad stands for. -/
theorem encode_endsInOnePad_iff
    (hPad : ∀ n < 64, char n ≠ pad)
    {bytes : List UInt8}
    (hSome : bytes ≠ []) :
    EndsInOnePad pad (encode char pad bytes) ↔
      bytes.length % 3 = 2 := by
  rcases encode_ends hPad hSome with
    ⟨front, c, d, hText, hC, hD⟩
  have hEnds :
      EndsInOnePad pad (encode char pad bytes) ↔
        c ≠ pad ∧ d = pad := by
    rw [hText]
    constructor
    · rintro ⟨front', last, hSame, hLast⟩
      have hTail := List.append_inj_right' hSame rfl
      cases hTail
      exact ⟨hLast, rfl⟩
    · rintro ⟨hLast, rfl⟩
      exact ⟨front, c, rfl, hLast⟩
  rw [hEnds, hD, Ne, hC]
  omega

end Base64
