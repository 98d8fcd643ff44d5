import XMLHttpRequest.Base.JsFunctions

/-
  `split` of `utils::string` (utilities.h), and the texts that
  it splits.

  Key definitions include:
    * `Network.findFirstOf`
    * `Network.substr`
    * `Network.split`
    * `Network.Splits`

  Key theorems include:
    * `Network.split_missing`
    * `Network.split_found`
    * `Network.start_of_splits`
    * `Network.split_splits_iff`
-/

------------------------------------------------------------
-- The Function
------------------------------------------------------------

namespace Network

/- `std::string::npos` -/
def npos : Nat := 2 ^ 64 - 1

/- `input.find_first_of(c, pos)` -/
def findFirstOf
    (input : Bytes)
    (c : UInt8)
    (pos : Nat) : Nat :=
  match (input.drop pos).idxOf? c with
  | some i => pos + i
  | none => npos

/- `input.substr(pos, count)` -/
def substr
    (input : Bytes)
    (pos count : Nat) : Outcome StdException Bytes :=
  if pos ≤ input.length then
    .returns ((input.drop pos).take count)
  else .throws .outOfRange

/- `split`, which takes an index other than zero for a hit -/
def split
    (input : Bytes)
    (splitter : UInt8)
    (pos : Nat := 0) :
    Outcome StdException (Bytes × Bytes) :=
  if input = [] then .returns ([], [])
  else
    let p := findFirstOf input splitter pos
    if p ≠ 0 then
      (substr input pos p).bind fun first =>
        (substr input (sizeT (p + 1 : Nat))
          input.length).map fun second => (first, second)
    else .returns (input, [])

/-
  The two sides of the first splitter of a text, or the text
  and nothing.
-/
structure Splits
    (text : Bytes)
    (splitter : UInt8)
    (parts : Bytes × Bytes) : Prop where
  found :
    splitter ∈ text →
      splitter ∉ parts.1 ∧
        parts.1 ++ splitter :: parts.2 = text
  missing : splitter ∉ text → parts = (text, [])

end Network

------------------------------------------------------------
-- What It Returns
------------------------------------------------------------

namespace Network

variable {s : Bytes}
variable {c : UInt8}
variable {pos : Nat}

theorem substr_of_le
    (hPos : pos ≤ s.length)
    (count : Nat) :
    substr s pos count =
      .returns ((s.drop pos).take count) :=
  if_pos hPos

/- Behind `npos` comes zero, and the second part is all. -/
theorem split_missing
    (hPos : pos < s.length)
    (hSize : s.length < npos)
    (hMissing : c ∉ s.drop pos) :
    split s c pos = .returns (s.drop pos, s) := by
  have hSome : s ≠ [] :=
    List.ne_nil_of_length_pos (Nat.zero_lt_of_lt hPos)
  have hIndex : findFirstOf s c pos = npos := by
    unfold findFirstOf
    rw [List.idxOf?_eq_none_iff.mpr hMissing]
  have hWrap : sizeT (npos + 1 : Nat) = 0 := by decide
  have hRest : (s.drop pos).take npos = s.drop pos :=
    List.take_of_length_le (by rw [List.length_drop]; omega)
  unfold split
  simp only [if_neg hSome, hIndex]
  rw [if_pos (by decide), hWrap, substr_of_le hPos.le,
    substr_of_le (Nat.zero_le _), hRest, List.drop_zero,
    List.take_length]
  rfl

/- The first part is as long as the index, wherever it begins. -/
theorem split_found
    {before after : Bytes}
    (hSize : s.length < npos)
    (hText : s.drop pos = before ++ c :: after)
    (hFirst : c ∉ before) :
    split s c pos =
      .returns
        (if pos + before.length = 0 then (s, [])
        else
          ((s.drop pos).take (pos + before.length),
            after)) := by
  have hLength := congrArg List.length hText
  simp only [List.length_drop, List.length_append,
    List.length_cons] at hLength
  have hSome : s ≠ [] := by
    rintro rfl
    simp at hLength
  have hIndex :
      findFirstOf s c pos = pos + before.length := by
    have hFind :
        (s.drop pos).idxOf? c = some before.length := by
      rw [List.idxOf?_eq_some_iff, hText]
      refine ⟨by simp, by simp, ?_⟩
      intro i hBefore
      rw [List.getElem_append_left hBefore]
      exact fun hSame =>
        hFirst (hSame ▸ List.getElem_mem hBefore)
    unfold findFirstOf
    rw [hFind]
  have hNext :
      sizeT (pos + before.length + 1 : Nat) =
        pos + before.length + 1 :=
    sizeT_ofNat (by unfold npos at hSize; omega)
  have hAfter :
      s.drop (pos + before.length + 1) = after := by
    rw [Nat.add_assoc, ← List.drop_drop, hText]
    simp
  have hRest : after.take s.length = after :=
    List.take_of_length_le (by omega)
  unfold split
  simp only [if_neg hSome, hIndex]
  by_cases hZero : pos + before.length = 0
  · rw [if_neg (not_not.mpr hZero), if_pos hZero]
  · rw [if_pos hZero, if_neg hZero, hNext,
      substr_of_le (by omega), substr_of_le (by omega),
      hAfter, hRest]
    rfl

/- A splitter within reach of the first part is in it. -/
theorem mem_first_of_pos
    {before after : Bytes}
    (hText : s.drop pos = before ++ c :: after)
    (hLater : 0 < pos) :
    c ∈ (s.drop pos).take (pos + before.length) := by
  have hReach : 0 < pos + before.length - before.length := by
    omega
  rw [hText, List.take_append]
  apply List.mem_append_right
  rw [List.take_cons hReach]
  exact List.mem_cons_self

end Network

------------------------------------------------------------
-- What It Splits
------------------------------------------------------------

namespace Network

variable {s : Bytes}
variable {c : UInt8}
variable {pos : Nat}

/- Behind other characters the first splitter is cut out. -/
theorem split_splits
    {before after : Bytes}
    (hSize : s.length < npos)
    (hText : s = before ++ c :: after)
    (hFirst : c ∉ before)
    (hBehind : before ≠ []) :
    ∃ parts, split s c = .returns parts ∧
      Splits s c parts := by
  have hLater : 0 + before.length ≠ 0 := by
    rw [Nat.zero_add]
    exact List.length_eq_zero_iff.not.mpr hBehind
  have hMem : c ∈ s := by
    rw [hText]
    exact List.mem_append_right _ List.mem_cons_self
  refine ⟨_, split_found hSize hText hFirst, ?_, ?_⟩
  · intro _
    rw [if_neg hLater, List.drop_zero, hText, Nat.zero_add,
      List.take_left' rfl]
    exact ⟨hFirst, rfl⟩
  · intro hNot
    exact absurd hMem hNot

/- From elsewhere, or in front, it stays in the first part. -/
theorem start_of_splits
    {before after : Bytes}
    {parts : Bytes × Bytes}
    (hSize : s.length < npos)
    (hText : s.drop pos = before ++ c :: after)
    (hFirst : c ∉ before)
    (hParts : split s c pos = .returns parts)
    (hSplits : Splits (s.drop pos) c parts) :
    pos = 0 ∧ before ≠ [] := by
  have hMem : c ∈ s.drop pos := by
    rw [hText]
    exact List.mem_append_right _ List.mem_cons_self
  have hNone := (hSplits.found hMem).1
  rw [split_found hSize hText hFirst,
    Outcome.returns.injEq] at hParts
  rw [← hParts] at hNone
  by_cases hZero : pos + before.length = 0
  · rw [if_pos hZero] at hNone
    exact absurd (List.mem_of_mem_drop hMem) hNone
  · rw [if_neg hZero] at hNone
    have hStart : pos = 0 := by
      by_contra hLater
      exact hNone
        (mem_first_of_pos hText (Nat.pos_of_ne_zero hLater))
    refine ⟨hStart, ?_⟩
    rintro rfl
    exact hZero (by simpa using hStart)

/- A text begins with the splitter where nothing is before. -/
theorem head?_ne_iff
    {before after : Bytes}
    (hFirst : c ∉ before) :
    (before ++ c :: after).head? ≠ some c ↔ before ≠ [] := by
  cases before with
  | nil => simp
  | cons d before =>
      have hOther : c ≠ d := by
        intro hSame
        exact hFirst (hSame ▸ List.mem_cons_self)
      simp [hOther.symm]

/-
  A string is split as it says from its beginning alone, at a
  splitter that it holds and does not begin with.
-/
theorem split_splits_iff
    {s : Bytes}
    {pos : Nat}
    (c : UInt8)
    (hPos : pos < s.length)
    (hSize : s.length < npos) :
    (∃ parts, split s c pos = .returns parts ∧
      Splits (s.drop pos) c parts) ↔
      pos = 0 ∧ c ∈ s ∧ s.head? ≠ some c := by
  by_cases hMem : c ∈ s.drop pos
  · rcases List.eq_append_cons_of_mem hMem with
      ⟨before, after, hText, hFirst⟩
    constructor
    · rintro ⟨parts, hParts, hSplits⟩
      rcases start_of_splits hSize hText hFirst hParts
          hSplits with
        ⟨rfl, hBehind⟩
      rw [List.drop_zero] at hText hMem
      refine ⟨rfl, hMem, ?_⟩
      rw [hText]
      exact (head?_ne_iff hFirst).mpr hBehind
    · rintro ⟨rfl, -, hHead⟩
      rw [List.drop_zero] at hText ⊢
      rw [hText] at hHead
      exact split_splits hSize hText hFirst
        ((head?_ne_iff hFirst).mp hHead)
  · apply iff_of_false
    · rintro ⟨parts, hParts, hSplits⟩
      rw [split_missing hPos hSize hMem,
        Outcome.returns.injEq] at hParts
      have hSame := hSplits.missing hMem
      rw [← hParts] at hSame
      rw [(Prod.mk.inj hSame).2] at hPos
      exact absurd hPos (Nat.not_lt_zero pos)
    · rintro ⟨rfl, hHeld, -⟩
      exact hMem hHeld

/- A parameter behind a name. -/
theorem split_splits_pair :
    ∃ parts, split (ascii "a;b") 59 = .returns parts ∧
      Splits ((ascii "a;b").drop 0) 59 parts :=
  (split_splits_iff 59 (by decide) (by decide)).mpr
    ⟨rfl, by decide, by decide⟩

/- Without a splitter the second part is the string. -/
theorem split_not_splits :
    ¬ ∀ (s : Bytes) (c : UInt8) (pos : Nat),
      s ≠ [] → pos < s.length →
        ∃ parts, split s c pos = .returns parts ∧
          Splits (s.drop pos) c parts := by
  intro hAll
  rcases hAll (ascii "ab") 59 0 (by decide) (by decide) with
    ⟨parts, hParts, hSplits⟩
  have hReturned :
      split (ascii "ab") 59 =
        .returns (ascii "ab", ascii "ab") :=
    split_missing (by decide) (by decide) (by decide)
  rw [hReturned, Outcome.returns.injEq] at hParts
  have hNothing := hSplits.missing (by decide)
  rw [← hParts] at hNothing
  exact absurd hNothing (by decide)

end Network
