import XMLHttpRequest.Base.JsFunctions
import XMLHttpRequest.Library.Base64

/-
  What the Base64 functions of the sources compute, and where
  they undo each other.

  Key definitions include:
    * `Network.rfcChar`
    * `Network.decodedGroup`
    * `Network.decodedGroups`

  Key theorems include:
    * `Network.encode_rfc`
    * `Network.encodeFromArray_eq`
    * `Network.decode_encodeFromArray`
    * `Network.decode_roundTrip`
-/

------------------------------------------------------------
-- Bits
------------------------------------------------------------

namespace Network

open Base64

theorem shift_or
    {low : Nat}
    (high k : Nat)
    (hLow : low < 2 ^ k) :
    high <<< k ||| low = high * 2 ^ k + low := by
  rw [← Nat.shiftLeft_add_eq_or_of_lt hLow,
    Nat.shiftLeft_eq]

/- The masks of the sources are remainders. -/
theorem and_mask (n : Nat) :
    3 &&& n = n % 4 ∧ 15 &&& n = n % 16 ∧
      63 &&& n = n % 64 := by
  have hMask :
      ∀ k, (2 ^ k - 1) &&& n = n % 2 ^ k := by
    intro k
    rw [Nat.and_comm, Nat.and_two_pow_sub_one_eq_mod]
  exact ⟨hMask 2, hMask 4, hMask 6⟩

/- The indices of the characters of a group. -/
def encodeIndices (array : Bytes) (n : Nat) : List Nat :=
  let first := getVectorValue array n
  let second := getVectorValue array (n + 1)
  let third := getVectorValue array (n + 2)
  [ first >>> 2,
    ((3 &&& first) <<< 4) ||| (second >>> 4),
    ((15 &&& second) <<< 2) ||| (third >>> 6),
    63 &&& third ]

theorem encodeIndices_eq (array : Bytes) (n : Nat) :
    encodeIndices array n =
      [ sextet1 (array.getD n 0),
        sextet2 (array.getD n 0) (array.getD (n + 1) 0),
        sextet3 (array.getD (n + 1) 0)
          (array.getD (n + 2) 0),
        sextet4 (array.getD (n + 2) 0) ] := by
  have hSecond := (array.getD (n + 1) 0).toNat_lt
  have hThird := (array.getD (n + 2) 0).toNat_lt
  unfold encodeIndices getVectorValue
  simp only [Nat.shiftRight_eq_div_pow, (and_mask _).1,
    (and_mask _).2.1, (and_mask _).2.2]
  rw [shift_or _ _ (by omega), shift_or _ _ (by omega)]
  rfl

/- The characters of a group are those of its numbers. -/
theorem encodeGroup_eq (array : Bytes) (n : Nat) :
    encodeGroup array n =
      [ uriChar (sextet1 (array.getD n 0)),
        uriChar
          (sextet2 (array.getD n 0) (array.getD (n + 1) 0)),
        uriChar
          (sextet3 (array.getD (n + 1) 0)
            (array.getD (n + 2) 0)),
        uriChar (sextet4 (array.getD (n + 2) 0)) ] :=
  congrArg (List.map uriChar) (encodeIndices_eq array n)

/- The numbers of three bytes make the bytes again. -/
theorem ofNat_sextets (x y z : UInt8) :
    UInt8.ofNat
          (sextet1 x <<< 2 ||| sextet2 x y >>> 4) = x ∧
      UInt8.ofNat
          ((15 &&& sextet2 x y) <<< 4 |||
            sextet3 y z >>> 2) = y ∧
      UInt8.ofNat
          ((3 &&& sextet3 y z) <<< 6 |||
            (63 &&& sextet4 z)) = z := by
  have hX := x.toNat_lt
  have hY := y.toNat_lt
  have hZ := z.toNat_lt
  simp only [Nat.shiftRight_eq_div_pow, (and_mask _).1,
    (and_mask _).2.1, (and_mask _).2.2]
  unfold sextet1 sextet2 sextet3 sextet4
  rw [shift_or _ _ (by omega), shift_or _ _ (by omega),
    shift_or _ _ (by omega)]
  have hFirst :
      x.toNat / 4 * 2 ^ 2 +
        (x.toNat % 4 * 16 + y.toNat / 16) / 2 ^ 4 =
          x.toNat := by
    omega
  have hSecond :
      (x.toNat % 4 * 16 + y.toNat / 16) % 16 * 2 ^ 4 +
        (y.toNat % 16 * 4 + z.toNat / 64) / 2 ^ 2 =
          y.toNat := by
    omega
  have hThird :
      (y.toNat % 16 * 4 + z.toNat / 64) % 4 * 2 ^ 6 +
        z.toNat % 64 % 64 = z.toNat := by
    omega
  rw [hFirst, hSecond, hThird]
  exact ⟨UInt8.ofNat_toNat, UInt8.ofNat_toNat,
    UInt8.ofNat_toNat⟩

end Network

------------------------------------------------------------
-- The Encoder
------------------------------------------------------------

namespace Network

open Base64

/- The characters of all groups, before the padding. -/
def encodedGroups (array : Bytes) : Bytes :=
  (List.range ((array.length + 2) / 3)).flatMap
    fun group => encodeGroup array (3 * group)

theorem encodedGroups_cons (x y z : UInt8) (rest : Bytes) :
    encodedGroups (x :: y :: z :: rest) =
      uriChar (sextet1 x) :: uriChar (sextet2 x y) ::
        uriChar (sextet3 y z) :: uriChar (sextet4 z) ::
          encodedGroups rest := by
  have hGroups :
      ((x :: y :: z :: rest).length + 2) / 3 =
        (rest.length + 2) / 3 + 1 := by
    simp only [List.length_cons]
    omega
  have hLater :
      ∀ group,
        encodeGroup (x :: y :: z :: rest) (3 * (group + 1)) =
          encodeGroup rest (3 * group) := by
    intro group
    rw [encodeGroup_eq, encodeGroup_eq,
      show 3 * (group + 1) = 3 * group + 1 + 1 + 1 by omega]
    simp only [List.getD_cons_succ]
  unfold encodedGroups
  rw [hGroups, List.range_succ_eq_map, List.flatMap_cons,
    List.flatMap_map]
  simp only [Nat.succ_eq_add_one, hLater]
  rw [encodeGroup_eq]
  rfl

theorem length_encodedGroups (array : Bytes) :
    (encodedGroups array).length =
      4 * ((array.length + 2) / 3) := by
  unfold encodedGroups
  rw [List.length_flatMap]
  simp [encodeGroup, Nat.mul_comm]

/- The characters that are replaced by `pads`. -/
theorem encodeFromArray_eq_trim (array : Bytes) :
    encodeFromArray array =
      if array.length % 3 = 2 then
        (encodedGroups array).take
          ((encodedGroups array).length - 1) ++ ascii "="
      else if array.length % 3 = 1 then
        (encodedGroups array).take
          ((encodedGroups array).length - 2) ++ ascii "=="
      else encodedGroups array :=
  rfl

theorem take_behind_four
    (a b c d : UInt8)
    {out : Bytes}
    {n : Nat}
    (hLong : n ≤ out.length) :
    (a :: b :: c :: d :: out).take
        ((a :: b :: c :: d :: out).length - n) =
      a :: b :: c :: d :: out.take (out.length - n) := by
  have hLength :
      (a :: b :: c :: d :: out).length - n =
        out.length - n + 1 + 1 + 1 + 1 := by
    simp only [List.length_cons]
    omega
  rw [hLength]
  simp only [List.take_succ_cons]

/- `encodeFromArray` is Base64 in the alphabet of the table. -/
theorem encodeFromArray_eq (array : Bytes) :
    encodeFromArray array = encode uriChar 61 array := by
  induction array using encode.induct with
  | case1 => rfl
  | case2 x =>
      simp [encodeFromArray, encodeGroup_eq, encode, ascii]
  | case3 x y =>
      simp [encodeFromArray, encodeGroup_eq, encode, ascii]
  | case4 x y z rest ih =>
      have hRest :
          (x :: y :: z :: rest).length % 3 =
            rest.length % 3 := by
        simp only [List.length_cons]
        omega
      have hLength := length_encodedGroups rest
      rw [encode, ← ih, encodeFromArray_eq_trim,
        encodeFromArray_eq_trim rest, hRest,
        encodedGroups_cons]
      split
      · rw [take_behind_four _ _ _ _ (by omega)]
        rfl
      · split
        · rw [take_behind_four _ _ _ _ (by omega)]
          rfl
        · rfl

end Network

------------------------------------------------------------
-- RFC 4648
------------------------------------------------------------

namespace Network

open Base64

/- The Base64 alphabet: letters, digits, `+` and `/`. -/
def rfcChar (n : Nat) : UInt8 :=
  if n < 26 then UInt8.ofNat (65 + n)
  else if n < 52 then UInt8.ofNat (97 + (n - 26))
  else if n < 62 then UInt8.ofNat (48 + (n - 52))
  else if n = 62 then 43
  else 47

/- The place of a character in the alphabet. -/
def rfcIndex (c : UInt8) : Option Nat :=
  if 65 ≤ c ∧ c ≤ 90 then some (c.toNat - 65)
  else if 97 ≤ c ∧ c ≤ 122 then some (c.toNat - 97 + 26)
  else if 48 ≤ c ∧ c ≤ 57 then some (c.toNat - 48 + 52)
  else if c = 43 then some 62
  else if c = 47 then some 63
  else none

theorem rfcIndex_rfcChar
    {n : Nat}
    (hSmall : n < 64) :
    rfcIndex (rfcChar n) = some n ∧
      rfcChar n ≠ 61 ∧ rfcChar n < 128 := by
  have hAll :
      ∀ n : Fin 64,
        rfcIndex (rfcChar n) = some n.val ∧
          rfcChar n ≠ 61 ∧ rfcChar n < 128 := by
    decide +kernel
  exact hAll ⟨n, hSmall⟩

theorem uriCharset_eq :
    uriCharset = (List.range 64).map rfcChar ++ [0] := by
  decide +kernel

theorem uriChar_eq_rfcChar
    {n : Nat}
    (hSmall : n < 64) :
    uriChar n = rfcChar n := by
  have hInside : n < ((List.range 64).map rfcChar).length := by
    simpa using hSmall
  unfold uriChar
  rw [uriCharset_eq, List.getD_eq_getElem?_getD,
    List.getElem?_append_left hInside]
  simp [hSmall]

/- The characters of a group are those at its indices. -/
theorem encodeGroup_indices (array : Bytes) (n : Nat) :
    encodeGroup array n =
        (encodeIndices array n).map uriChar ∧
      ∀ index ∈ encodeIndices array n, index < 64 := by
  refine ⟨rfl, ?_⟩
  rw [encodeIndices_eq]
  simp [sextet1_lt, sextet2_lt, sextet3_lt, sextet4_lt]

/- A text depends on the first 64 characters alone. -/
theorem encode_rfc (array : Bytes) :
    encode uriChar 61 array = encode rfcChar 61 array := by
  induction array using encode.induct with
  | case1 => rfl
  | case2 x =>
      simp only [encode, uriChar_eq_rfcChar (sextet1_lt x),
        uriChar_eq_rfcChar (sextet2_lt x 0)]
  | case3 x y =>
      simp only [encode, uriChar_eq_rfcChar (sextet1_lt x),
        uriChar_eq_rfcChar (sextet2_lt x y),
        uriChar_eq_rfcChar (sextet3_lt y 0)]
  | case4 x y z rest ih =>
      simp only [encode, uriChar_eq_rfcChar (sextet1_lt x),
        uriChar_eq_rfcChar (sextet2_lt x y),
        uriChar_eq_rfcChar (sextet3_lt y z),
        uriChar_eq_rfcChar (sextet4_lt z), ih]

theorem read_rfc (array : Bytes) :
    read rfcIndex 61 (encode rfcChar 61 array) =
      some array :=
  read_encode (fun _ h => (rfcIndex_rfcChar h).1)
    (fun _ h => (rfcIndex_rfcChar h).2.1) array

end Network

------------------------------------------------------------
-- The Decoder
------------------------------------------------------------

namespace Network

open Base64

/- The table entry of a character. -/
def sextetOf (c : UInt8) : Nat :=
  sextetTable.getD c.toNat 0

/- The bytes that one round of the loop stores. -/
def decodedGroup (uri : Bytes) (group : Nat) : Bytes :=
  let i := sextetOf (uri.getD (4 * group) 0)
  let r := sextetOf (uri.getD (4 * group + 1) 0)
  let o := sextetOf (uri.getD (4 * group + 2) 0)
  let a := sextetOf (uri.getD (4 * group + 3) 0)
  [ UInt8.ofNat (i <<< 2 ||| r >>> 4),
    UInt8.ofNat ((15 &&& r) <<< 4 ||| o >>> 2),
    UInt8.ofNat ((3 &&& o) <<< 6 ||| (63 &&& a)) ]

/- The bytes that the rounds store for whole groups. -/
def decodedGroups (uri : Bytes) : Bytes :=
  (List.range (uri.length / 4)).flatMap (decodedGroup uri)

/- The table has the place of each character of the alphabet. -/
theorem sextetTable_eq :
    sextetTable =
      (List.range 256).map fun k =>
        (rfcIndex (UInt8.ofNat k)).getD 0 := by
  unfold sextetTable
  rw [uriCharset_eq]
  decide +kernel

theorem length_sextetTable : sextetTable.length = 256 := by
  simp [sextetTable_eq]

theorem sextetOf_eq (c : UInt8) :
    sextetOf c = (rfcIndex c).getD 0 := by
  have hByte := c.toNat_lt
  unfold sextetOf
  rw [sextetTable_eq, List.getD_eq_getElem?_getD]
  simp [hByte]

/- A character that is not negative has a table entry. -/
theorem sextetAt_ascii
    {uri : Bytes}
    {t : Nat}
    (hInside : t < uri.length)
    (hAscii : ∀ c ∈ uri, c < 128) :
    sextetAt uri t = .returns (sextetOf (uri.getD t 0)) := by
  have hChar : uri.getD t 0 = uri[t] := by
    rw [List.getD_eq_getElem?_getD,
      List.getElem?_eq_getElem hInside]
    rfl
  have hSmall : uri[t].toNat < 128 :=
    UInt8.lt_iff_toNat_lt.mp
      (hAscii _ (List.getElem_mem hInside))
  have hIndex : sizeT (signedChar uri[t]) = uri[t].toNat := by
    unfold sizeT signedChar
    rw [Int.bmod_def]
    omega
  have hEntry :
      sextetTable[uri[t].toNat]? =
        some (sextetOf uri[t]) := by
    unfold sextetOf
    rw [List.getD_eq_getElem?_getD,
      List.getElem?_eq_getElem
        (by rw [length_sextetTable]; omega)]
    rfl
  unfold sextetAt
  rw [List.getElem?_eq_getElem hInside, hChar]
  simp only [hIndex, hEntry]

/- A store behind what has been stored. -/
theorem writeAt_append
    (stored : Bytes)
    (old : UInt8)
    (rest : Bytes)
    (byte : UInt8) :
    writeAt (stored ++ old :: rest) stored.length byte =
      .returns (stored ++ byte :: rest) := by
  unfold writeAt
  rw [if_pos (by simp), List.set_append_right _ _ le_rfl,
    Nat.sub_self, List.set_cons_zero]

/- One round stores the bytes of its group. -/
theorem decodeGroup_returns
    {uri : Bytes}
    {group : Nat}
    (hInside : 4 * group + 3 < uri.length)
    (hAscii : ∀ c ∈ uri, c < 128)
    {stored : Bytes}
    (hStored : stored.length = 3 * group)
    (old1 old2 old3 : UInt8)
    (rest : Bytes) :
    decodeGroup uri (stored ++ old1 :: old2 :: old3 :: rest)
        group =
      .returns
        (stored ++ decodedGroup uri group ++ rest) := by
  unfold decodeGroup decodedGroup
  simp only
  rw [sextetAt_ascii (by omega) hAscii,
    sextetAt_ascii (by omega) hAscii,
    sextetAt_ascii (by omega) hAscii,
    sextetAt_ascii (by omega) hAscii]
  simp only [Outcome.bind_returns]
  generalize UInt8.ofNat (_ <<< 2 ||| _) = byte1
  generalize UInt8.ofNat (_ <<< 4 ||| _) = byte2
  generalize UInt8.ofNat (_ <<< 6 ||| _) = byte3
  have hSecond :
      3 * group + 1 = (stored ++ [byte1]).length := by
    simp [hStored]
  have hThird :
      3 * group + 2 = (stored ++ [byte1, byte2]).length := by
    simp [hStored]
  rw [← hStored, writeAt_append, Outcome.bind_returns,
    hStored, hSecond,
    show stored ++ byte1 :: old2 :: old3 :: rest =
      (stored ++ [byte1]) ++ old2 :: old3 :: rest by simp,
    writeAt_append, Outcome.bind_returns, hThird,
    show stored ++ [byte1] ++ byte2 :: old3 :: rest =
      (stored ++ [byte1, byte2]) ++ old3 :: rest by simp,
    writeAt_append]
  simp

end Network

------------------------------------------------------------
-- Decoded Texts
------------------------------------------------------------

namespace Network

open Base64

/- The loop stores the bytes of one group after another. -/
theorem decodeGroups_returns
    {uri : Bytes}
    {n : Nat}
    (hLength : uri.length = 4 * n)
    (hAscii : ∀ c ∈ uri, c < 128) :
    Outcome.foldl (decodeGroup uri)
        (List.replicate (3 * n) 0) (List.range n) =
      .returns (decodedGroups uri) := by
  let state := fun k =>
    (List.range k).flatMap (decodedGroup uri) ++
      List.replicate (3 * (n - k)) 0
  have hRound :
      ∀ k < n, decodeGroup uri (state k) k =
        .returns (state (k + 1)) := by
    intro k hk
    have hRoom :
        3 * (n - k) = 3 * (n - (k + 1)) + 1 + 1 + 1 := by
      omega
    have hStored :
        ((List.range k).flatMap
          (decodedGroup uri)).length = 3 * k := by
      rw [List.length_flatMap]
      simp [decodedGroup, Nat.mul_comm]
    simp only [state, hRoom, List.replicate_succ]
    rw [decodeGroup_returns (by omega) hAscii hStored,
      List.range_succ, List.flatMap_append,
      List.flatMap_singleton]
  have hLoop := Outcome.foldl_range state n hRound
  have hCount : uri.length / 4 = n := by omega
  simp only [state, Nat.sub_self, Nat.mul_zero,
    List.replicate_zero, List.append_nil, Nat.sub_zero,
    List.range_zero, List.flatMap_nil,
    List.nil_append] at hLoop
  rw [hLoop, decodedGroups, hCount]

theorem decodedGroups_cons (a b c d : UInt8) (rest : Bytes) :
    decodedGroups (a :: b :: c :: d :: rest) =
      decodedGroup [a, b, c, d] 0 ++ decodedGroups rest := by
  have hGroups :
      (a :: b :: c :: d :: rest).length / 4 =
        rest.length / 4 + 1 := by
    simp only [List.length_cons]
    omega
  have hLater :
      ∀ group,
        decodedGroup (a :: b :: c :: d :: rest)
            (group + 1) =
          decodedGroup rest group := by
    intro group
    have hIndex :
        4 * (group + 1) = 4 * group + 1 + 1 + 1 + 1 := by
      omega
    unfold decodedGroup
    rw [hIndex]
    simp only [List.getD_cons_succ]
  unfold decodedGroups
  rw [hGroups, List.range_succ_eq_map, List.flatMap_cons,
    List.flatMap_map]
  simp only [Nat.succ_eq_add_one, hLater]
  rfl

theorem sextetOf_uriChar
    {n : Nat}
    (hSmall : n < 64) :
    sextetOf (uriChar n) = n := by
  rw [sextetOf_eq, uriChar_eq_rfcChar hSmall,
    (rfcIndex_rfcChar hSmall).1]
  rfl

theorem sextetOf_pad : sextetOf 61 = 0 :=
  sextetOf_eq 61

theorem uriChar_spec
    {n : Nat}
    (hSmall : n < 64) :
    uriChar n ≠ 61 ∧ uriChar n < 128 := by
  rw [uriChar_eq_rfcChar hSmall]
  exact (rfcIndex_rfcChar hSmall).2

/- The group that three bytes are written as is read back. -/
theorem decodedGroup_quad (x y z : UInt8) :
    decodedGroup
        [ uriChar (sextet1 x), uriChar (sextet2 x y),
          uriChar (sextet3 y z), uriChar (sextet4 z) ] 0 =
      [x, y, z] := by
  have hBytes := ofNat_sextets x y z
  unfold decodedGroup
  simp only [List.getD_cons_zero, List.getD_cons_succ,
    Nat.mul_zero, Nat.zero_add,
    sextetOf_uriChar (sextet1_lt x),
    sextetOf_uriChar (sextet2_lt x y),
    sextetOf_uriChar (sextet3_lt y z),
    sextetOf_uriChar (sextet4_lt z)]
  rw [hBytes.1, hBytes.2.1, hBytes.2.2]

/- A pad is read as the first character of the alphabet. -/
theorem decodedGroup_pad (a b c : UInt8) :
    decodedGroup [a, b, c, 61] 0 =
        decodedGroup [a, b, c, uriChar 0] 0 ∧
      decodedGroup [a, b, 61, 61] 0 =
        decodedGroup [a, b, uriChar 0, uriChar 0] 0 := by
  have hZero : sextetOf (uriChar 0) = sextetOf 61 := by
    rw [sextetOf_uriChar (by decide), sextetOf_pad]
  unfold decodedGroup
  simp only [List.getD_cons_zero, List.getD_cons_succ,
    Nat.mul_zero, Nat.zero_add, hZero, and_self]

/-
  The groups of an encoded text are the bytes, followed by a
  zero for every pad.
-/
theorem decodedGroups_encode (x : Bytes) :
    decodedGroups (encode uriChar 61 x) =
      x ++ List.replicate ((3 - x.length % 3) % 3) 0 := by
  induction x using encode.induct with
  | case1 => rfl
  | case2 x =>
      rw [encode, decodedGroups_cons, (decodedGroup_pad _ _ 0).2]
      exact congrArg (· ++ []) (decodedGroup_quad x 0 0)
  | case3 x y =>
      rw [encode, decodedGroups_cons, (decodedGroup_pad _ _ _).1]
      exact congrArg (· ++ []) (decodedGroup_quad x y 0)
  | case4 x y z rest ih =>
      have hRest :
          (x :: y :: z :: rest).length % 3 =
            rest.length % 3 := by
        simp only [List.length_cons]
        omega
      rw [encode, decodedGroups_cons, decodedGroup_quad, ih,
        hRest]
      rfl

theorem encode_shape (x : Bytes) :
    (encode uriChar 61 x).length =
        4 * ((x.length + 2) / 3) ∧
      ∀ c ∈ encode uriChar 61 x, c < 128 := by
  induction x using encode.induct with
  | case1 => simp [encode]
  | case2 x =>
      refine ⟨by simp [encode], ?_⟩
      simp [encode, (uriChar_spec (sextet1_lt x)).2,
        (uriChar_spec (sextet2_lt x 0)).2]
  | case3 x y =>
      refine ⟨by simp [encode], ?_⟩
      simp [encode, (uriChar_spec (sextet1_lt x)).2,
        (uriChar_spec (sextet2_lt x y)).2,
        (uriChar_spec (sextet3_lt y 0)).2]
  | case4 x y z rest ih =>
      constructor
      · rw [encode]
        simp only [List.length_cons, ih.1]
        omega
      · rw [encode]
        simpa [(uriChar_spec (sextet1_lt x)).2,
          (uriChar_spec (sextet2_lt x y)).2,
          (uriChar_spec (sextet3_lt y z)).2,
          (uriChar_spec (sextet4_lt z)).2] using ih.2

end Network

------------------------------------------------------------
-- Round Trips
------------------------------------------------------------

namespace Network

open Base64

/- Characters at the end of a text. -/
theorem getD_ends (front : Bytes) (c d : UInt8) :
    (front ++ [c, d]).getD
          ((front ++ [c, d]).length - 1) 0 = d ∧
      (front ++ [c, d]).getD
          ((front ++ [c, d]).length - 2) 0 = c := by
  simp [List.getD_eq_getElem?_getD]

/-
  Decoding undoes encoding but for the zero that a single pad
  stands for.
-/
theorem decode_encodeFromArray
    {x : Bytes}
    (hSome : x ≠ []) :
    decode (encodeFromArray x) =
      .returns (if x.length % 3 = 2 then x ++ [0] else x) := by
  rcases encode_shape x with ⟨hLength, hAscii⟩
  rcases encode_ends (fun _ h => (uriChar_spec h).1) hSome
    with ⟨front, c, d, hText, hC, hD⟩
  have hSize :
      3 * (encode uriChar 61 x).length / 4 =
        3 * ((x.length + 2) / 3) := by
    rw [hLength]
    omega
  have hCount :
      ((encode uriChar 61 x).length + 3) / 4 =
        (x.length + 2) / 3 := by
    rw [hLength]
    omega
  have hNonempty : encode uriChar 61 x ≠ [] := by
    rw [hText]
    simp
  rw [encodeFromArray_eq]
  unfold decode
  simp only [hSize, hCount]
  rw [decodeGroups_returns hLength hAscii,
    Outcome.bind_returns, if_neg hNonempty,
    decodedGroups_encode, hText, (getD_ends front c d).1,
    (getD_ends front c d).2]
  simp only [Bool.and_eq_true, decide_eq_true_eq, hC, hD]
  have hCases :
      x.length % 3 = 0 ∨ x.length % 3 = 1 ∨
        x.length % 3 = 2 := by
    omega
  rcases hCases with hNone | hOne | hTwo
  · simp [hNone]
  · simp [hOne]
  · simp [hTwo]

/- The test of the last characters runs off an empty text. -/
theorem decode_nil : decode [] = .undefined := rfl

/-
  An array survives unless it is empty or two bytes are left
  of it, and a text unless it ends in exactly one pad.
-/
theorem decode_roundTrip (x s : Bytes) :
    (decode (encodeFromArray x) = .returns x ↔
      x ≠ [] ∧ x.length % 3 ≠ 2) ∧
    (s ≠ [] → Canonical uriChar 61 s →
      ((∃ x, decode s = .returns x ∧
          encodeFromArray x = s) ↔
        ¬ EndsInOnePad 61 s)) := by
  constructor
  · by_cases hSome : x = []
    · subst hSome
      simp [encodeFromArray_eq, encode, decode_nil]
    · rw [decode_encodeFromArray hSome]
      by_cases hTwo : x.length % 3 = 2
      · simp [hTwo]
      · simp [hTwo, hSome]
  · intro hSome hCanonical
    rcases (canonical_iff s).mp hCanonical with ⟨x, rfl⟩
    have hBytes : x ≠ [] := by
      rintro rfl
      exact hSome rfl
    rw [encode_endsInOnePad_iff
      (fun _ h => (uriChar_spec h).1) hBytes,
      ← encodeFromArray_eq, decode_encodeFromArray hBytes]
    by_cases hTwo : x.length % 3 = 2
    · rw [if_pos hTwo]
      refine iff_of_false ?_ (not_not.mpr hTwo)
      rintro ⟨y, hDecoded, hEncoded⟩
      cases hDecoded
      -- whole groups leave nothing to pad
      have hPadded :
          EndsInOnePad 61 (encode uriChar 61 x) :=
        (encode_endsInOnePad_iff
          (fun _ h => (uriChar_spec h).1) hBytes).mpr hTwo
      rw [← encodeFromArray_eq, ← hEncoded,
        encodeFromArray_eq, encode_endsInOnePad_iff
          (fun _ h => (uriChar_spec h).1) (by simp)] at hPadded
      rw [List.length_append, List.length_singleton] at hPadded
      omega
    · rw [if_neg hTwo]
      exact iff_of_true ⟨x, rfl, rfl⟩ hTwo

/- A text that keeps all of its bytes. -/
theorem decode_roundTrip_three :
    (∃ x, decode (ascii "AQID") = .returns x ∧
        encodeFromArray x = ascii "AQID") ↔
      ¬ EndsInOnePad 61 (ascii "AQID") :=
  (decode_roundTrip [1, 2, 3] (ascii "AQID")).2 (by decide)
    (.group (i := 0) (r := 16) (o := 8) (a := 3)
      (by decide) (by decide) (by decide) (by decide) .nil)

/- Two bytes come back as three. -/
theorem decode_two_bytes :
    ¬ ∀ x : Bytes,
      decode (encodeFromArray x) = .returns x := by
  intro hAll
  have hTwo :
      decode (encodeFromArray [1, 2]) =
        .returns [1, 2, 0] :=
    decode_encodeFromArray (by decide)
  have hSame := hTwo.symm.trans (hAll [1, 2])
  cases hSame

end Network
