import XMLHttpRequest.Base.Base64Text

/-
  The accesses of `decode` that are not checked, and the
  strings it throws for.

  Key definitions include:
    * `Network.charAt`
    * `Network.decodeAccesses`
    * `Network.DecodeSafe`

  Key theorems include:
    * `Network.decodeLoop_throws`
    * `Network.decodeAccesses_eq`
    * `Network.decodeSafe_iff`
-/

------------------------------------------------------------
-- Unchecked Accesses
------------------------------------------------------------

namespace Network

/-
  `s[index]`, up to the terminating zero.  An index below zero
  wraps to one far behind the end.
-/
def charAt
    (s : Bytes)
    (index : Int) : Outcome StdException UInt8 :=
  if 0 ≤ index ∧ index ≤ s.length then
    .returns (s.getD index.toNat 0)
  else .undefined

/- `n[utf16[i]] = i` in the array of 256 entries -/
def storeUnit
    (n : List Nat)
    (unit : Nat × Nat) : Outcome StdException (List Nat) :=
  if unit.1 < n.length then .returns (n.set unit.1 unit.2)
  else .undefined

/- `d->erase(d->end() - 2, d->end())` -/
def eraseTwo (d : Bytes) : Outcome StdException Bytes :=
  if 2 ≤ d.length then .returns (d.take (d.length - 2))
  else .undefined

/- The table, filled with each store looked at. -/
def fillTable : Outcome StdException (List Nat) :=
  Outcome.foldl storeUnit (List.replicate 256 0)
    ((iconv uriCharset 65).eraseIdx 0).zipIdx

/- The loop of `decode`. -/
def decodeLoop (uri : Bytes) : Outcome StdException Bytes :=
  Outcome.foldl (decodeGroup uri)
    (List.replicate (3 * uri.length / 4) 0)
    (List.range ((uri.length + 3) / 4))

/- The end of `decode`, behind the loop. -/
def decodeEnd
    (uri d : Bytes) : Outcome StdException Bytes :=
  (charAt uri (uri.length - 1)).bind fun last =>
    if last = 61 then
      (charAt uri (uri.length - 2)).bind fun before =>
        if before = 61 then eraseTwo d else .returns d
    else .returns d

/-
  `decode` with a test at each of its unchecked accesses.  The
  table that is filled is the one that `sextetAt` reads.
-/
def decodeAccesses
    (uri : Bytes) : Outcome StdException Bytes :=
  fillTable.bind fun _ =>
    (decodeLoop uri).bind (decodeEnd uri)

/- Every store falls into the table, for a unit is a byte. -/
theorem fillTable_eq : fillTable = .returns sextetTable := by
  have hByte :
      ∀ unit ∈ ((iconv uriCharset 65).eraseIdx 0).zipIdx,
        unit.1 < 256 := by
    intro unit hUnit
    have hText : unit.1 ∈ uriCharset.map UInt8.toNat :=
      List.mem_of_mem_take (List.fst_mem_of_mem_zipIdx hUnit)
    rcases List.mem_map.mp hText with ⟨c, _, hSame⟩
    rw [← hSame]
    exact c.toNat_lt
  unfold fillTable sextetTable
  refine Outcome.foldl_eq_returns
    (fun n : List Nat => n.length = 256) ?_
    List.length_replicate
  intro n hLength unit hUnit
  have hInside : unit.1 < n.length := by
    rw [hLength]
    exact hByte unit hUnit
  refine ⟨?_, by rw [List.length_set, hLength]⟩
  unfold storeUnit
  rw [if_pos hInside]

end Network

------------------------------------------------------------
-- Checked Accesses
------------------------------------------------------------

namespace Network

variable {uri : Bytes}

theorem signedChar_nonneg_iff (c : UInt8) :
    0 ≤ signedChar c ↔ c < 128 := by
  have hByte := c.toNat_lt
  have hHalf : c < 128 ↔ c.toNat < 128 :=
    UInt8.lt_iff_toNat_lt
  unfold signedChar
  rw [hHalf, Int.bmod_def]
  omega

/- A character that is read is there and not negative. -/
theorem sextetAt_inside
    {t sextet : Nat}
    (hRead : sextetAt uri t = .returns sextet) :
    ∃ c, uri[t]? = some c ∧ c < 128 := by
  unfold sextetAt at hRead
  cases hChar : uri[t]? with
  | none =>
      rw [hChar] at hRead
      cases hRead
  | some c =>
      refine ⟨c, rfl, ?_⟩
      rw [← signedChar_nonneg_iff]
      by_contra hNegative
      have hByte := c.toNat_lt
      have hOutside :
          sextetTable.length ≤ sizeT (signedChar c) := by
        rw [length_sextetTable]
        unfold sizeT signedChar at *
        rw [Int.bmod_def] at *
        omega
      rw [hChar] at hRead
      simp only [List.getElem?_eq_none hOutside] at hRead
      cases hRead

theorem sextetAt_throwsOnly (t : Nat) :
    (sextetAt uri t).ThrowsOnly .outOfRange := by
  unfold sextetAt
  split
  · exact Outcome.throwsOnly_throws
  · split
    · exact Outcome.throwsOnly_throws
    · exact Outcome.throwsOnly_returns _

theorem writeAt_throwsOnly
    (d : Bytes)
    (l : Nat)
    (byte : UInt8) :
    (writeAt d l byte).ThrowsOnly .outOfRange := by
  unfold writeAt
  split
  · exact Outcome.throwsOnly_returns _
  · exact Outcome.throwsOnly_throws

theorem decodeGroup_throwsOnly (d : Bytes) (group : Nat) :
    (decodeGroup uri d group).ThrowsOnly .outOfRange := by
  unfold decodeGroup
  apply (sextetAt_throwsOnly _).bind
  intro i
  apply (sextetAt_throwsOnly _).bind
  intro r
  apply (sextetAt_throwsOnly _).bind
  intro o
  apply (sextetAt_throwsOnly _).bind
  intro a
  apply (writeAt_throwsOnly _ _ _).bind
  intro d
  apply (writeAt_throwsOnly _ _ _).bind
  intro d
  exact writeAt_throwsOnly _ _ _

/- A round that ends has read four characters. -/
theorem decodeGroup_inside
    {d next : Bytes}
    {group : Nat}
    (hRound : decodeGroup uri d group = .returns next)
    {k : Nat}
    (hK : k < 4) :
    ∃ c, uri[4 * group + k]? = some c ∧ c < 128 := by
  unfold decodeGroup at hRound
  simp only [Outcome.bind_eq_returns_iff] at hRound
  rcases hRound with ⟨i, hI, r, hR, o, hO, a, hA, -⟩
  match k, hK with
  | 0, _ => exact sextetAt_inside hI
  | 1, _ => exact sextetAt_inside hR
  | 2, _ => exact sextetAt_inside hO
  | 3, _ => exact sextetAt_inside hA

end Network

------------------------------------------------------------
-- The Loop
------------------------------------------------------------

namespace Network

/- Groups of four characters, none of which is negative. -/
def Decodable (uri : Bytes) : Prop :=
  uri.length % 4 = 0 ∧ ∀ c ∈ uri, c < 128

theorem not_decodable_iff (uri : Bytes) :
    ¬ Decodable uri ↔
      uri.length % 4 ≠ 0 ∨ ∃ c ∈ uri, signedChar c < 0 := by
  have hByte :
      ∀ c, signedChar c < 0 ↔ ¬ c < 128 := by
    intro c
    rw [← signedChar_nonneg_iff, Int.not_le]
  simp only [Decodable, hByte, not_and_or, not_forall,
    exists_prop]

theorem decodeLoop_returns
    {uri : Bytes}
    (hDecodable : Decodable uri) :
    decodeLoop uri = .returns (decodedGroups uri) := by
  rcases hDecodable with ⟨hWhole, hAscii⟩
  have hLength : uri.length = 4 * (uri.length / 4) := by
    omega
  have hSize :
      3 * uri.length / 4 = 3 * (uri.length / 4) := by
    omega
  have hCount : (uri.length + 3) / 4 = uri.length / 4 := by
    omega
  rw [decodeLoop, hSize, hCount]
  exact decodeGroups_returns hLength hAscii

theorem decodeLoop_throws
    {uri : Bytes}
    (hOther : ¬ Decodable uri) :
    decodeLoop uri = .throws .outOfRange := by
  have hEnds :
      (decodeLoop uri).ThrowsOnly .outOfRange :=
    .foldl decodeGroup_throwsOnly _ _
  apply hEnds.resolve_left
  rintro ⟨d, hLoop⟩
  have hInside :
      ∀ t < 4 * ((uri.length + 3) / 4),
        ∃ c, uri[t]? = some c ∧ c < 128 := by
    intro t hT
    have hGroup : t / 4 ∈ List.range ((uri.length + 3) / 4) :=
      List.mem_range.mpr (by omega)
    rcases Outcome.exists_round_of_foldl hLoop hGroup with
      ⟨before, next, hRound⟩
    have hRead :=
      decodeGroup_inside hRound (k := t % 4) (by omega)
    rwa [Nat.div_add_mod] at hRead
  apply hOther
  constructor
  · by_contra hPart
    rcases hInside uri.length (by omega) with ⟨c, hC, -⟩
    simp at hC
  · intro c hC
    rcases List.mem_iff_getElem.mp hC with ⟨t, hT, rfl⟩
    rcases hInside t (by omega) with ⟨c, hSome, hAscii⟩
    rw [List.getElem?_eq_getElem hT] at hSome
    cases hSome
    exact hAscii

end Network

------------------------------------------------------------
-- All Strings
------------------------------------------------------------

namespace Network

/- The last two characters of a string that has two. -/
theorem charAt_ends
    (uri : Bytes)
    (hLong : 2 ≤ uri.length) :
    charAt uri (uri.length - 1) =
        .returns (uri.getD (uri.length - 1) 0) ∧
      charAt uri (uri.length - 2) =
        .returns (uri.getD (uri.length - 2) 0) := by
  have hLast :
      ((uri.length : Int) - 1).toNat = uri.length - 1 := by
    omega
  have hBefore :
      ((uri.length : Int) - 2).toNat = uri.length - 2 := by
    omega
  unfold charAt
  rw [if_pos (by omega), if_pos (by omega), hLast, hBefore]
  exact ⟨rfl, rfl⟩

theorem length_decodedGroups (uri : Bytes) :
    (decodedGroups uri).length = 3 * (uri.length / 4) := by
  rw [decodedGroups, List.length_flatMap]
  simp [decodedGroup, Nat.mul_comm]

/- What `decode` gives for whole groups. -/
theorem decodeEnd_decodedGroups
    {uri : Bytes}
    (hSome : uri ≠ [])
    (hDecodable : Decodable uri) :
    decodeEnd uri (decodedGroups uri) =
      .returns
        (if uri.getD (uri.length - 1) 0 = 61 ∧
            uri.getD (uri.length - 2) 0 = 61 then
          (decodedGroups uri).take
            ((decodedGroups uri).length - 2)
        else decodedGroups uri) := by
  have hPositive := List.length_pos_iff.mpr hSome
  have hWhole := hDecodable.1
  have hRoom : 2 ≤ (decodedGroups uri).length := by
    rw [length_decodedGroups]
    omega
  rcases charAt_ends uri (by omega) with
    ⟨hLast, hBefore⟩
  unfold decodeEnd eraseTwo
  rw [hLast, hBefore]
  simp only [Outcome.bind_returns, if_pos hRoom]
  by_cases hPad : uri.getD (uri.length - 1) 0 = 61
  · simp only [hPad, if_true, true_and]
    split <;> rfl
  · simp only [hPad, if_false, false_and]

/- The tests make no difference. -/
theorem decodeAccesses_eq (uri : Bytes) :
    decodeAccesses uri = decode uri := by
  have hDecode :
      decode uri =
        (decodeLoop uri).bind fun d =>
          if uri = [] then .undefined
          else if
              uri.getD (uri.length - 1) 0 = 61 &&
                uri.getD (uri.length - 2) 0 = 61 then
            .returns (d.take (d.length - 2))
          else .returns d := rfl
  rw [decodeAccesses, fillTable_eq, Outcome.bind_returns,
    hDecode]
  by_cases hDecodable : Decodable uri
  · rw [decodeLoop_returns hDecodable]
    simp only [Outcome.bind_returns]
    by_cases hSome : uri = []
    · subst hSome
      rfl
    · rw [decodeEnd_decodedGroups hSome hDecodable,
        if_neg hSome]
      simp only [Bool.and_eq_true, decide_eq_true_eq]
      split <;> rfl
  · rw [decodeLoop_throws hDecodable]
    rfl

/-
  Every unchecked access is inside, the function returns or
  throws the one exception, and it throws for exactly the
  strings with a part of a group or a negative character.
-/
structure DecodeSafe (uri : Bytes) : Prop where
  inside : decodeAccesses uri ≠ .undefined
  ends : (decode uri).ThrowsOnly .outOfRange
  throws :
    decode uri = .throws .outOfRange ↔
      uri.length % 4 ≠ 0 ∨ ∃ c ∈ uri, signedChar c < 0

/- The empty string is the one that `decode` reads outside. -/
theorem decodeSafe_iff (uri : Bytes) :
    DecodeSafe uri ↔ uri ≠ [] := by
  constructor
  · rintro hSafe rfl
    exact hSafe.inside
      ((decodeAccesses_eq []).trans decode_nil)
  · intro hSome
    have hAccesses := decodeAccesses_eq uri
    rw [decodeAccesses, fillTable_eq, Outcome.bind_returns]
      at hAccesses
    by_cases hDecodable : Decodable uri
    · rw [decodeLoop_returns hDecodable,
        Outcome.bind_returns,
        decodeEnd_decodedGroups hSome hDecodable] at hAccesses
      refine
        { inside := ?_
          ends := .inl ⟨_, hAccesses.symm⟩
          throws := ?_ }
      · rw [decodeAccesses_eq, ← hAccesses]
        exact nofun
      · rw [← not_decodable_iff, ← hAccesses]
        exact ⟨nofun, fun hNot => absurd hDecodable hNot⟩
    · rw [decodeLoop_throws hDecodable,
        Outcome.bind_throws] at hAccesses
      refine
        { inside := ?_
          ends := .inr hAccesses.symm
          throws := ?_ }
      · rw [decodeAccesses_eq, ← hAccesses]
        exact nofun
      · rw [← not_decodable_iff, ← hAccesses]
        exact ⟨fun _ => hDecodable, fun _ => rfl⟩

/- `uri[uri.length() - 1]` of the empty string -/
theorem decode_empty_unsafe : ¬ DecodeSafe [] :=
  fun hSafe =>
    hSafe.inside ((decodeAccesses_eq []).trans decode_nil)

end Network
