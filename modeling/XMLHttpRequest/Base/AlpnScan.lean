import XMLHttpRequest.Base.Alpn
import XMLHttpRequest.Base.JsFunctions

/-
  The reads of `selectProto` (utilities.h), none of them
  outside the buffer, and the entries that it finds.

  Key definitions include:
    * `Network.h2Keys`
    * `Network.readByte`
    * `Network.equalAt`
    * `Network.selectProtoReads`

  Key theorems include:
    * `Network.equalAt_eq`
    * `Network.selectProtoReads_eq`
    * `Network.selectProto_exact`
-/

------------------------------------------------------------
-- Checked Reads
------------------------------------------------------------

namespace Network

/- The keys of `selectH2`, in its order, and their names. -/
def h2Keys : List (Bytes × Bytes) :=
  [ (nghttp2H2Alpn, nghttp2H2),
    (nghttp2H216Alpn, nghttp2H216),
    (nghttp2H214Alpn, nghttp2H214) ]

/- `*p`, which has a meaning inside the buffer only -/
def readByte
    (input : Bytes)
    (p : Nat) : Outcome StdException UInt8 :=
  match input[p]? with
  | some byte => .returns byte
  | none => .undefined

/-
  `std::equal` of a key and the bytes from `p` on, which it
  reads up to the first that differs.
-/
def equalAt
    (input : Bytes) :
    Bytes → Nat → Outcome StdException Bool
  | [], _ => .returns true
  | c :: key, p =>
      (readByte input p).bind fun byte =>
        if c = byte then equalAt input key (p + 1)
        else .returns false

/- `selectProtoLoop` with each of its reads looked at. -/
def selectProtoReads
    (input key : Bytes)
    (p : Nat) : Outcome StdException (Option Selection) :=
  if p + key.length ≤ input.length then
    (equalAt input key p).bind fun same =>
      if same then
        (readByte input p).map fun outlen =>
          some { out := p + 1, outlen }
      else
        (readByte input p).bind fun stride =>
          selectProtoReads input key
            (p + (stride.toNat + 1))
  else .returns none
termination_by input.length + 1 - p

/- A key is its name behind the length of the name. -/
theorem h2Keys_entry
    {key name : Bytes}
    (hKey : (key, name) ∈ h2Keys) :
    key = alpnEntry name ∧ name.length < 256 := by
  simp only [h2Keys, List.mem_cons, Prod.mk.injEq,
    List.not_mem_nil, or_false] at hKey
  rcases hKey with
    ⟨rfl, rfl⟩ | ⟨rfl, rfl⟩ | ⟨rfl, rfl⟩
  · exact ⟨rfl, by decide⟩
  · exact ⟨rfl, by decide⟩
  · exact ⟨rfl, by decide⟩

end Network

------------------------------------------------------------
-- Reads Inside the Buffer
------------------------------------------------------------

namespace Network

variable {input key : Bytes}
variable {p : Nat}

theorem readByte_of_lt (hInside : p < input.length) :
    readByte input p = .returns (input.getD p 0) := by
  have hByte : input[p]? = some (input.getD p 0) := by
    rw [List.getD_eq_getElem?_getD,
      List.getElem?_eq_getElem hInside]
    rfl
  unfold readByte
  rw [hByte]

/- Where there is room for the key it may be compared. -/
theorem equalAt_eq
    (hRoom : p + key.length ≤ input.length) :
    equalAt input key p =
      .returns
        (decide ((input.drop p).take key.length = key)) := by
  induction key generalizing p with
  | nil => simp [equalAt]
  | cons c key ih =>
      rw [List.length_cons] at hRoom
      have hInside : p < input.length := by omega
      have hDrop :
          input.drop p =
            input.getD p 0 :: input.drop (p + 1) := by
        rw [List.drop_eq_getElem_cons hInside,
          List.getD_eq_getElem?_getD,
          List.getElem?_eq_getElem hInside]
        rfl
      rw [equalAt, readByte_of_lt hInside,
        Outcome.bind_returns, hDrop, List.length_cons,
        List.take_succ_cons, ih (by omega)]
      by_cases hSame : c = input.getD p 0
      · rw [if_pos hSame, ← hSame]
        simp
      · have hOther :
            ¬ input.getD p 0 ::
                (input.drop (p + 1)).take key.length =
              c :: key := by
          intro hBoth
          exact hSame (List.cons.inj hBoth).1.symm
        rw [if_neg hSame, decide_eq_false hOther]

/- The guard of the loop covers each of its reads. -/
theorem selectProtoReads_eq
    (hKey : key ≠ [])
    (p : Nat) :
    selectProtoReads input key p =
      .returns (selectProtoLoop input key p) := by
  have hLength : 0 < key.length :=
    List.length_pos_iff.mpr hKey
  induction p using selectProtoLoop.induct input key with
  | case1 p hRoom hEqual =>
      rw [selectProtoReads, selectProtoLoop, if_pos hRoom,
        if_pos hRoom, if_pos hEqual, equalAt_eq hRoom,
        readByte_of_lt (by omega)]
      simp [hEqual]
  | case2 p hRoom hDiffers ih =>
      rw [selectProtoReads, selectProtoLoop, if_pos hRoom,
        if_pos hRoom, if_neg hDiffers, equalAt_eq hRoom,
        readByte_of_lt (by omega), ← ih]
      simp [hDiffers]
  | case3 p hRoom =>
      rw [selectProtoReads, selectProtoLoop, if_neg hRoom,
        if_neg hRoom]

end Network

------------------------------------------------------------
-- The Entries That Are Found
------------------------------------------------------------

namespace Network

/-
  On any bytes the scan ends without a read outside, and it
  selects nothing but the name of its key inside them; on a
  list of entries it selects the name where an entry is it.
-/
theorem selectProto_exact
    {key name : Bytes}
    (hKey : (key, name) ∈ h2Keys) :
    (∀ input,
      selectProtoReads input key 0 =
        .returns (selectProto input key) ∧
      ∀ selection, selectProto input key = some selection →
        selection.out + selection.outlen.toNat ≤
          input.length ∧
        selection.name input = name) ∧
    ∀ entries : List Bytes,
      (∀ text ∈ entries, text.length < 256) →
        ((selectProto (entries.flatMap alpnEntry) key).isSome =
            true ↔
          name ∈ entries) ∧
        ∀ selection,
          selectProto (entries.flatMap alpnEntry) key =
              some selection →
            ∃ before after,
              entries = before ++ name :: after ∧
              selection.out =
                (before.flatMap alpnEntry).length + 1 := by
  rcases h2Keys_entry hKey with ⟨rfl, hName⟩
  constructor
  · intro input
    exact ⟨selectProtoReads_eq (List.cons_ne_nil _ _) 0,
      fun _ hFound => selectProto_sound hName hFound⟩
  · intro entries hFit
    by_cases hListed : name ∈ entries
    · rcases List.eq_append_cons_of_mem hListed with
        ⟨before, after, rfl, hOther⟩
      rw [List.forall_mem_append] at hFit
      have hSelected :=
        selectProto_of_mem hName hFit.1 hOther after
      rw [hSelected]
      refine ⟨iff_of_true rfl hListed, ?_⟩
      intro selection hFound
      cases hFound
      exact ⟨before, after, rfl, rfl⟩
    · rw [selectProto_of_not_mem hName hFit hListed]
      refine ⟨iff_of_false (by simp) hListed, ?_⟩
      intro selection hFound
      cases hFound

/- An entry that ends like that of the key. -/
theorem selectProto_exact_embedded :
    (selectProto
      ([ascii "x", 2 :: ascii "h2"].flatMap alpnEntry)
        nghttp2H2Alpn).isSome = true ↔
      nghttp2H2 ∈ [ascii "x", 2 :: ascii "h2"] :=
  ((selectProto_exact (List.mem_cons_self)).2
    [ascii "x", 2 :: ascii "h2"] (by simp; decide)).1

end Network
