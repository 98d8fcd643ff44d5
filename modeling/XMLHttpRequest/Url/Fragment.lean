import XMLHttpRequest.Url.Spelling

/-
  The field of the fragment.

  The scan passes over the hashes that a fragment begins with
  and counts what is behind them.

  Key definitions include:
    * `Network.UrlScan.BeforeFragment`
    * `Network.UrlText.shownFragment`

  Key theorems include:
    * `Network.UrlScan.fragment_of_readAt`
    * `Network.UrlText.fragment_of_loop`
-/

------------------------------------------------------------
-- Before a Fragment
------------------------------------------------------------

namespace Network

/- Only a hash leads into a fragment. -/
theorem parseUrlChar_not_inFragment
    {s : UrlState}
    {c : UInt8}
    (hState : ¬ s.inFragment)
    (hHash : c ≠ 35) :
    ¬ (parseUrlChar s c).inFragment := by
  have hServer : ¬ (parseServerChar c).inFragment := by
    unfold parseServerChar UrlState.inFragment
    grind
  unfold UrlState.inFragment at hState hServer ⊢
  cases s <;> simp only [parseUrlChar] <;> grind

theorem parseUrlChar_enters_fragment
    {s : UrlState}
    (hState : ¬ s.inFragment)
    (hAlive : parseUrlChar s 35 ≠ .dead) :
    parseUrlChar s 35 = .fragmentStart := by
  revert hState hAlive
  unfold UrlState.inFragment
  cases s <;> decide

namespace UrlScan

/- No character of a fragment has been read. -/
structure BeforeFragment (scan : UrlScan) : Prop where
  state : ¬ scan.s.inFragment
  oldUf : scan.oldUf ≠ some .fragment
  field : scan.u.fieldData .fragment = none

variable {scan next last : UrlScan}
variable {p : Nat}

theorem BeforeFragment.char
    (hBefore : scan.BeforeFragment)
    {ch : UInt8}
    (hHash : ch ≠ 35)
    (hChar : scan.char p ch = some next) :
    next.BeforeFragment := by
  have hState :=
    parseUrlChar_not_inFragment hBefore.state hHash
  cases hField : (parseUrlChar scan.s ch).field with
  | none =>
      rw [eq_of_delimiter hChar rfl hField]
      exact ⟨hState, hBefore.oldUf, hBefore.field⟩
  | some uf =>
      have hOther : uf ≠ .fragment := by
        rintro rfl
        apply hState
        revert hField
        cases parseUrlChar scan.s ch <;>
          simp [UrlState.field, UrlState.inFragment]
      rw [eq_of_field hChar rfl hField]
      refine ⟨hState, by simpa [extend] using hOther, ?_⟩
      rw [extend_fieldData_of_ne hOther.symm]
      exact hBefore.field

theorem BeforeFragment.readAt
    (hBefore : scan.BeforeFragment)
    {text : Bytes}
    (hText : ∀ c ∈ text, c ≠ 35)
    (hRead :
      Scanner.readAt UrlScan.char scan p text = some last) :
    last.BeforeFragment := by
  induction text generalizing scan p with
  | nil => exact Option.some.inj hRead ▸ hBefore
  | cons c text ih =>
      rw [List.forall_mem_cons] at hText
      rw [Scanner.readAt, Option.bind_eq_some_iff] at hRead
      rcases hRead with ⟨next, hChar, hRest⟩
      exact ih (hBefore.char hText.1 hChar) hText.2 hRest

end UrlScan

end Network

------------------------------------------------------------
-- Inside of a Fragment
------------------------------------------------------------

namespace Network

open Scanner (readAt)

namespace UrlScan

variable {scan last : UrlScan}
variable {p start : Nat}
variable {part text : Bytes}

/- The hashes in front of a fragment are passed over. -/
theorem readAt_hashes
    (hState : scan.s = .fragmentStart)
    (hText : ∀ c ∈ text, c = 35) :
    readAt char scan p text = some scan := by
  induction text generalizing p with
  | nil => rfl
  | cons c text ih =>
      rw [List.forall_mem_cons] at hText
      have hNext :
          parseUrlChar scan.s c = .fragmentStart := by
        rw [hState, hText.1]
        decide
      rw [readAt, char_of_delimiter hNext rfl (by decide),
        Option.bind_some, ← hState]
      exact ih hText.2

/- A character of a fragment, once it has been shown. -/
theorem char_inFragment
    {ch : UInt8}
    {next : UrlScan}
    (hState :
      scan.s = .fragment ∨
        (scan.s = .fragmentStart ∧ ch ≠ 35))
    (hChar : scan.char p ch = some next) :
    next = scan.extend p .fragment .fragment := by
  have hAlive := alive_of_char hChar
  have hNext : parseUrlChar scan.s ch = .fragment := by
    rcases hState with hState | ⟨hState, hHash⟩ <;>
      rw [hState] at hAlive ⊢ <;>
      simp only [parseUrlChar] at hAlive ⊢ <;> grind
  exact eq_of_field hChar hNext rfl

theorem readAt_inFragment
    (hState : scan.s = .fragment)
    (hOld : scan.oldUf = some .fragment)
    (hField :
      scan.u.fieldData .fragment = fieldAt start part)
    (hPart : part ≠ [])
    (hPlace : p = start + part.length)
    (hRead : readAt char scan p text = some last) :
    last.u.fieldData .fragment =
      fieldAt start (part ++ text) := by
  induction text generalizing scan p part with
  | nil =>
      rw [← Option.some.inj hRead, List.append_nil]
      exact hField
  | cons c text ih =>
      rw [readAt, Option.bind_eq_some_iff] at hRead
      rcases hRead with ⟨next, hChar, hRest⟩
      have hNext := char_inFragment (.inl hState) hChar
      have hLonger :=
        extend_fieldData hField (iff_of_true hOld hPart)
          hPlace .fragment c
      rw [hNext] at hRest
      rw [List.append_cons]
      refine ih rfl rfl hLonger (by simp) ?_ hRest
      simp only [List.length_append, List.length_singleton]
      omega

/- What the field of the fragment is after all of it. -/
theorem fragment_of_readAt
    (hBefore : scan.BeforeFragment)
    (hRead : readAt char scan p (35 :: text) = some last) :
    last.u.fieldData .fragment =
      fieldAt (p + 1 + (text.takeWhile (· = 35)).length)
        (text.dropWhile (· = 35)) := by
  rw [readAt, Option.bind_eq_some_iff] at hRead
  rcases hRead with ⟨opened, hHash, hRest⟩
  have hState :=
    parseUrlChar_enters_fragment hBefore.state
      (alive_of_char hHash)
  have hOpened := eq_of_delimiter hHash hState rfl
  have hFragment : opened.s = .fragmentStart := by
    rw [hOpened]
  have hHashes :
      ∀ c ∈ text.takeWhile (· = 35), c = 35 := by
    intro c hMem
    simpa using List.mem_takeWhile_imp hMem
  have hSplit :
      text.takeWhile (· = 35) ++ text.dropWhile (· = 35) =
        text :=
    List.takeWhile_append_dropWhile
  rw [← hSplit, Scanner.readAt_append,
    readAt_hashes hFragment hHashes, Option.bind_some]
    at hRest
  have hStop := List.head?_dropWhile_not (· = 35) text
  generalize text.dropWhile (· = 35) = shown
    at hRest hStop ⊢
  cases shown with
  | nil =>
      rw [← Option.some.inj hRest, hOpened, fieldAt_nil]
      exact hBefore.field
  | cons c shown =>
      have hOther : c ≠ 35 := by simpa using hStop
      rw [readAt, Option.bind_eq_some_iff] at hRest
      rcases hRest with ⟨next, hChar, hLater⟩
      have hNext :=
        char_inFragment (.inr ⟨hFragment, hOther⟩) hChar
      have hNone :
          opened.u.fieldData .fragment =
            fieldAt
              (p + 1 + (text.takeWhile (· = 35)).length)
              [] := by
        rw [hOpened, fieldAt_nil]
        exact hBefore.field
      have hOld :
          opened.oldUf = some .fragment ↔ ([] : Bytes) ≠ [] := by
        rw [hOpened]
        exact iff_of_false hBefore.oldUf (by simp)
      have hPlaced :=
        extend_fieldData hNone hOld rfl .fragment c
      rw [hNext] at hLater
      exact readAt_inFragment rfl rfl hPlaced (by simp) rfl
        hLater

end UrlScan

namespace UrlText

variable (text : UrlText)

/- The text before the fragment and its hash. -/
def beforeFragment : Bytes :=
  text.front ++ marked 63 text.query

/- The hashes that a fragment begins with. -/
def fragmentHashes : Bytes :=
  (text.fragment.getD []).takeWhile (· = 35)

/- The fragment behind these hashes. -/
def shownFragment : Bytes :=
  (text.fragment.getD []).dropWhile (· = 35)

def fragmentStart : Nat :=
  text.beforeFragment.length + 1 +
    text.fragmentHashes.length

/- A hash that is no part of the authority is the fragment's. -/
theorem fragment_of_loop
    (hAuthority : ∀ c ∈ text.authority, c ≠ 35)
    {scan : UrlScan}
    (hLoop :
      ({ s := .spacesBeforeUrl } : UrlScan).loop 0
        text.bytes = some scan) :
    scan.u.fieldData .fragment =
      fieldAt text.fragmentStart text.shownFragment := by
  have hBefore : ∀ c ∈ text.beforeFragment, c ≠ 35 := by
    intro c hMem
    simp only [beforeFragment, front, List.mem_append] at hMem
    rcases hMem with (((hScheme | hMarks) | hServer) | hPath) |
      hQuery
    · rintro rfl
      exact absurd (text.scheme_chars 35 hScheme) (by decide)
    · rintro rfl
      exact absurd hMarks (by decide)
    · exact hAuthority c hServer
    · exact (text.path_chars c hPath).2
    · cases hText : text.query with
      | none =>
          rw [hText] at hQuery
          cases hQuery
      | some query =>
          rw [hText] at hQuery
          rcases List.mem_cons.mp hQuery with rfl | hIn
          · decide
          · exact text.query_chars query hText c hIn
  have hStart :
      UrlScan.BeforeFragment { s := .spacesBeforeUrl } :=
    ⟨by simp [UrlState.inFragment], by simp, rfl⟩
  have hBytes :
      text.bytes =
        text.beforeFragment ++ marked 35 text.fragment := rfl
  rw [UrlScan.loop_eq_readAt, hBytes, Scanner.readAt_append,
    Option.bind_eq_some_iff, Nat.zero_add] at hLoop
  rcases hLoop with ⟨before, hFirst, hLast⟩
  have hReached := hStart.readAt hBefore hFirst
  unfold shownFragment fragmentStart fragmentHashes
  cases hText : text.fragment with
  | none =>
      rw [hText] at hLast
      rw [← Option.some.inj hLast]
      exact hReached.field
  | some fragment =>
      rw [hText] at hLast
      exact UrlScan.fragment_of_readAt hReached hLast

/- What is shown of a fragment ends the text. -/
theorem standsAt_shownFragment
    (hShown : text.shownFragment ≠ []) :
    StandsAt text.bytes text.fragmentStart
      text.shownFragment := by
  cases hText : text.fragment with
  | none => simp [shownFragment, hText] at hShown
  | some fragment =>
      have hSplit :
          text.fragmentHashes ++ text.shownFragment =
            fragment := by
        rw [fragmentHashes, shownFragment, hText]
        exact List.takeWhile_append_dropWhile
      have hBytes :
          text.bytes =
            (text.beforeFragment ++ 35 ::
                text.fragmentHashes) ++
              (text.shownFragment ++ []) := by
        rw [List.append_nil, List.append_assoc,
          List.cons_append, hSplit, bytes, hText]
        rfl
      have hStart :
          text.fragmentStart =
            (text.beforeFragment ++ 35 ::
              text.fragmentHashes).length := by
        simp only [fragmentStart, List.length_append,
          List.length_cons]
        omega
      rw [hBytes, hStart]
      exact .of_append _ _ _

end UrlText

end Network
