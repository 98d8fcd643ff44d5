import XMLHttpRequest.Base.SessionUtil
import XMLHttpRequest.Library.Outcome

/-
  The functions of `jsobjects` (jsfunctions.h).

  Key definitions include:
    * `Network.encodeURIComponent`
    * `Network.stoiHex`
    * `Network.decodeURIComponent`
    * `Network.encodeFromArray`
    * `Network.decode`
-/

------------------------------------------------------------
-- URI Components
------------------------------------------------------------

namespace Network

/- The exceptions of the standard library met here. -/
inductive StdException
  | invalidArgument
  | outOfRange
  deriving DecidableEq, Repr

/- `hexToChar`: the two digits of a byte -/
def hexToChar (c : UInt8) : UInt8 × UInt8 :=
  let hex1 := c / 16
  let hex2 := c % 16
  ( hex1 + (if hex1 ≤ 9 then 48 else 97 - 10),
    hex2 + (if hex2 ≤ 9 then 48 else 97 - 10) )

/-
  The characters that `encodeURIComponent` keeps: digits,
  letters and `-_.!~*'()`.
-/
def leftUnescaped (c : UInt8) : Bool :=
  (48 ≤ c && c ≤ 57) || (97 ≤ c && c ≤ 122) ||
    (65 ≤ c && c ≤ 90) || c = 45 || c = 95 || c = 46 ||
    c = 33 || c = 126 || c = 42 || c = 39 || c = 40 ||
    c = 41

/- What one character is written as. -/
def encodeUriChar (c : UInt8) : Bytes :=
  if leftUnescaped c then [c]
  else if c = 32 then [43]
  else
    let (d1, d2) := hexToChar c
    [37, d1, d2]

/- `encodeURIComponent` -/
def encodeURIComponent (s : Bytes) : Bytes :=
  s.flatMap encodeUriChar

/- A sign before a number, and the text after it. -/
def afterSign : Bytes → Bool × Bytes
  | 45 :: s => (true, s)
  | 43 :: s => (false, s)
  | s => (false, s)

/- The text after a `0x` that stands before a digit. -/
def afterHexPrefix : Bytes → Bytes
  | 48 :: x :: c :: s =>
      if (x = 120 || x = 88) && isHexDigit c then c :: s
      else 48 :: x :: c :: s
  | s => s

/- The value of a hexadecimal digit. -/
def hexValue (c : UInt8) : Nat :=
  if c ≤ 57 then c.toNat - 48
  else if c ≤ 70 then c.toNat - 65 + 10
  else c.toNat - 97 + 10

/- `std::stoi` in base sixteen -/
def stoiHex (s : Bytes) : Outcome StdException Int :=
  let (negative, s) := afterSign (s.dropWhile isSpace)
  let digits := (afterHexPrefix s).takeWhile isHexDigit
  let magnitude : Nat :=
    digits.foldl (fun n c => n * 16 + hexValue c) 0
  let n : Int := if negative then -magnitude else magnitude
  if digits = [] then .throws .invalidArgument
  else if n < -2 ^ 31 || 2 ^ 31 ≤ n then
    .throws .outOfRange
  else .returns n

/- `stringToHex`, whose result is pushed as a character -/
def stringToHex (s : Bytes) : Outcome StdException UInt8 :=
  (stoiHex s).map fun n => UInt8.ofNat (n % 2 ^ 8).toNat

/-
  `decodeURIComponent`.  The text after a `%` is read as two
  characters, the second of which may be the terminating
  zero; the iterator then jumps over both, and nothing is
  said of what it reads behind the end of the string.
-/
def decodeURIComponent : Bytes → Outcome StdException Bytes
  | [] => .returns []
  | c :: rest =>
      if c = 37 then
        match rest with
        | first :: second :: rest =>
            (stringToHex [first, second]).bind fun byte =>
              (decodeURIComponent rest).map (byte :: ·)
        | [first] =>
            (stringToHex [first, 0]).bind fun _ =>
              .undefined
        | [] => .undefined
      else if c = 43 then
        (decodeURIComponent rest).map (32 :: ·)
      else (decodeURIComponent rest).map (c :: ·)

end Network

------------------------------------------------------------
-- Base64
------------------------------------------------------------

namespace Network

/- `uriCharset`, a string with its terminating zero -/
def uriCharset : Bytes :=
  ascii "ABCDEFGHIJKLMNOPQRSTUVWXYZ" ++
    ascii "abcdefghijklmnopqrstuvwxyz" ++
    ascii "0123456789+/" ++ [0]

/- `getVectorValue`: zero outside the array -/
def getVectorValue (array : Bytes) (at_ : Nat) : Nat :=
  (array.getD at_ 0).toNat

/- `uriCharset[index]` -/
def uriChar (index : Nat) : UInt8 :=
  uriCharset.getD index 0

/- The four characters for the three bytes from `n` on. -/
def encodeGroup (array : Bytes) (n : Nat) : Bytes :=
  let first := getVectorValue array n
  let second := getVectorValue array (n + 1)
  let third := getVectorValue array (n + 2)
  [ uriChar (first >>> 2),
    uriChar (((3 &&& first) <<< 4) ||| (second >>> 4)),
    uriChar (((15 &&& second) <<< 2) ||| (third >>> 6)),
    uriChar (63 &&& third) ]

/- `encodeFromArray` -/
def encodeFromArray (array : Bytes) : Bytes :=
  let groups := (array.length + 2) / 3
  let out :=
    (List.range groups).flatMap fun group =>
      encodeGroup array (3 * group)
  if array.length % 3 = 2 then
    out.take (out.length - 1) ++ ascii "="
  else if array.length % 3 = 1 then
    out.take (out.length - 2) ++ ascii "=="
  else out

/-
  `iconv` of ASCII text from UTF-8 to UTF-16: a byte-order
  mark and the same code units, as many as there is room for.
-/
def iconv (text : Bytes) (room : Nat) : List Nat :=
  (0xFEFF :: text.map UInt8.toNat).take room

/- The array `n` of `decode`, filled from the code units. -/
def sextetTable : List Nat :=
  let utf16 := (iconv uriCharset 65).eraseIdx 0
  utf16.zipIdx.foldl (fun n unit => n.set unit.1 unit.2)
    (List.replicate 256 0)

/- `n.at(static_cast<size_t>(uri.at(t)))` -/
def sextetAt
    (uri : Bytes)
    (t : Nat) : Outcome StdException Nat :=
  match uri[t]? with
  | none => .throws .outOfRange
  | some c =>
      match sextetTable[sizeT (signedChar c)]? with
      | none => .throws .outOfRange
      | some sextet => .returns sextet

/- `d->at(l) = byte` -/
def writeAt
    (d : Bytes)
    (l : Nat)
    (byte : UInt8) : Outcome StdException Bytes :=
  if l < d.length then .returns (d.set l byte)
  else .throws .outOfRange

/- One round of the loop of `decode`. -/
def decodeGroup
    (uri d : Bytes)
    (group : Nat) : Outcome StdException Bytes :=
  let t := 4 * group
  let l := 3 * group
  (sextetAt uri t).bind fun i =>
    (sextetAt uri (t + 1)).bind fun r =>
      (sextetAt uri (t + 2)).bind fun o =>
        (sextetAt uri (t + 3)).bind fun a =>
          (writeAt d l
            (UInt8.ofNat (i <<< 2 ||| r >>> 4))).bind
              fun d =>
                (writeAt d (l + 1)
                  (UInt8.ofNat
                    ((15 &&& r) <<< 4 ||| o >>> 2))).bind
                      fun d =>
                        writeAt d (l + 2)
                          (UInt8.ofNat
                            ((3 &&& o) <<< 6 |||
                              (63 &&& a)))

/-
  `decode`, whose size is `0.75 * uri.length()` cut to an
  integer.  The last test reads before the start of an empty
  string.
-/
def decode (uri : Bytes) : Outcome StdException Bytes :=
  let d := List.replicate (3 * uri.length / 4) 0
  let groups := (uri.length + 3) / 4
  (Outcome.foldl (decodeGroup uri) d
    (List.range groups)).bind fun d =>
      if uri = [] then .undefined
      else if
          uri.getD (uri.length - 1) 0 = 61 &&
            uri.getD (uri.length - 2) 0 = 61 then
        .returns (d.take (d.length - 2))
      else .returns d

end Network
