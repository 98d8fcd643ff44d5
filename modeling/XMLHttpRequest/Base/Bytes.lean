import Mathlib.Algebra.Order.Ring.Int
import Mathlib.Data.List.Lex

/-
  Bytes, byte strings and the fixed-width conversions that the
  sources rely on.

  Key definitions include:
    * `Network.Bytes`
    * `Network.ascii`
    * `Network.toUpper`
    * `Network.StringView`
    * `Network.sizeT`
    * `Network.toInt32`
    * `Network.signedChar`
-/

------------------------------------------------------------
-- Byte Strings
------------------------------------------------------------

namespace Network

/- A `std::string`, a `std::vector<uint8_t>` or a buffer. -/
abbrev Bytes := List UInt8

/- `char_traits<char>` orders characters as unsigned bytes. -/
instance instLinearOrderByte : LinearOrder UInt8 where
  le_refl byte := UInt8.le_refl byte
  le_trans _ _ _ := UInt8.le_trans
  le_antisymm _ _ := UInt8.le_antisymm
  le_total := UInt8.le_total
  lt_iff_le_not_ge left right := by
    rw [UInt8.not_le]
    exact ⟨fun hLt => ⟨UInt8.le_of_lt hLt, hLt⟩,
      fun h => h.2⟩
  toDecidableLE := inferInstance
  toDecidableEq := inferInstance
  toDecidableLT := inferInstance

/- The bytes of a literal made of ASCII characters. -/
def ascii (text : String) : Bytes :=
  text.toList.map fun c => UInt8.ofNat c.toNat

/- `std::isspace` in the C locale. -/
def isSpace (c : UInt8) : Bool :=
  c = 32 || (9 ≤ c && c ≤ 13)

/- `std::isdigit` in the C locale. -/
def isDigit (c : UInt8) : Bool :=
  48 ≤ c && c ≤ 57

/- `std::toupper` in the C locale. -/
def toUpperChar (c : UInt8) : UInt8 :=
  if 97 ≤ c && c ≤ 122 then c - 32 else c

/- `utils::string::to_upper` -/
def toUpper (s : Bytes) : Bytes :=
  s.map toUpperChar

/- The string that a `const char *` stands for. -/
def cString (s : Bytes) : Bytes :=
  s.takeWhile (· ≠ 0)

/-
  A `std::string_view`, and the bytes that stand behind it in
  memory, at least up to the next zero.
-/
structure StringView where
  text : Bytes
  behind : Bytes := []
  deriving DecidableEq

/-
  A `std::string` made of `data()`, which does not know where
  the view ends.
-/
def StringView.data (view : StringView) : Bytes :=
  cString (view.text ++ view.behind)

theorem isDigit_iff {c : UInt8} :
    isDigit c = true ↔ 48 ≤ c.toNat ∧ c.toNat ≤ 57 := by
  simp [isDigit, UInt8.le_iff_toNat_le]

/- What holds of the 256 bytes holds of every byte. -/
theorem forall_byte
    {property : UInt8 → Prop}
    (hBytes : ∀ n : Fin 256, property (UInt8.ofFin n))
    (c : UInt8) :
    property c :=
  hBytes c.toFin

end Network

------------------------------------------------------------
-- Fixed-Width Integers
------------------------------------------------------------

namespace Network

/- A value stored in a 64-bit `size_t`. -/
def sizeT (n : Int) : Nat :=
  (n % 2 ^ 64).toNat

/- A value stored in a 32-bit `int`. -/
def toInt32 (n : Int) : Int :=
  Int.bmod n (2 ^ 32)

/- A value stored in an `int64_t`. -/
def toInt64 (n : Int) : Int :=
  Int.bmod n (2 ^ 64)

/- A value stored in a `uint16_t`. -/
def toUint16 (n : Nat) : Nat :=
  n % 2 ^ 16

/- A value stored in a `uint32_t`. -/
def toUint32 (n : Int) : Nat :=
  (n % 2 ^ 32).toNat

/- The number that a `char` is, which is signed. -/
def signedChar (c : UInt8) : Int :=
  Int.bmod c.toNat (2 ^ 8)

theorem sizeT_ofNat
    {n : Nat}
    (hFits : n < 2 ^ 64) :
    sizeT n = n := by
  unfold sizeT
  omega

/- A `size_t` comes back from an `int64_t`. -/
theorem sizeT_toInt64 (n : Int) :
    sizeT (toInt64 n) = sizeT n := by
  unfold sizeT toInt64
  rw [Int.bmod_def]
  omega

theorem toInt64_lt (n : Int) : toInt64 n < 2 ^ 63 := by
  unfold toInt64
  rw [Int.bmod_def]
  omega

theorem toInt64_ofNat
    {n : Nat}
    (hFits : n < 2 ^ 63) :
    toInt64 n = n := by
  unfold toInt64
  rw [Int.bmod_def]
  omega

theorem toInt32_ofNat
    {n : Nat}
    (hFits : n < 2 ^ 31) :
    toInt32 n = n := by
  unfold toInt32
  rw [Int.bmod_def]
  omega

end Network

------------------------------------------------------------
-- Numerals
------------------------------------------------------------

namespace Network

/- Each digit read scales the bound on the value by the base. -/
theorem foldl_numeral_lt
    {base : Nat}
    {value : UInt8 → Nat}
    (digits : Bytes)
    (hDigits : ∀ c ∈ digits, value c < base)
    (before : Nat) :
    digits.foldl (fun n c => n * base + value c) before <
      (before + 1) * base ^ digits.length := by
  induction digits generalizing before with
  | nil => simp
  | cons c digits ih =>
      have hDigit := hDigits c List.mem_cons_self
      have hRest :=
        ih (fun d hD => hDigits d (List.mem_cons_of_mem _ hD))
          (before * base + value c)
      have hStep :
          before * base + value c + 1 ≤
            (before + 1) * base := by
        rw [Nat.succ_mul]
        omega
      calc
        digits.foldl (fun n c => n * base + value c)
            (before * base + value c)
          < (before * base + value c + 1) *
              base ^ digits.length := hRest
        _ ≤ ((before + 1) * base) * base ^ digits.length :=
            Nat.mul_le_mul_right _ hStep
        _ = (before + 1) * base ^ (c :: digits).length := by
            rw [List.length_cons, Nat.pow_succ', Nat.mul_assoc]

end Network
