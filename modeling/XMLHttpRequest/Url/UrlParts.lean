import XMLHttpRequest.Url.HostText

/-
  The parts of a URL, read off its text.

  The functions cut a text at its marks and know nothing of
  the parser.  On a text that the parser has scanned they give
  the parts of the scan, and a field of the parser is its part
  exactly when 16 bits reach it.

  Key definitions include:
    * `Network.authorityOf`
    * `Network.pathOf`
    * `Network.queryOf`
    * `Network.requestTarget`
    * `Network.InReach`

  Key theorems include:
    * `Network.UrlText.authorityOf_bytes`
    * `Network.UrlText.pathOf_bytes`
    * `Network.UrlText.queryOf_bytes`
    * `Network.component_eq_iff`
-/

------------------------------------------------------------
-- Cutting a Text
------------------------------------------------------------

namespace Network

/- What stands behind `://`. -/
def afterScheme (url : Bytes) : Bytes :=
  (url.dropWhile (· ≠ 58)).drop 3

/- The authority ends at the first slash or question mark. -/
def authorityOf (url : Bytes) : Bytes :=
  (afterScheme url).takeWhile fun c => c ≠ 47 && c ≠ 63

def afterAuthority (url : Bytes) : Bytes :=
  (afterScheme url).dropWhile fun c => c ≠ 47 && c ≠ 63

/- The path ends at the first question mark or hash. -/
def pathOf (url : Bytes) : Bytes :=
  (afterAuthority url).takeWhile fun c => c ≠ 63 && c ≠ 35

def afterPath (url : Bytes) : Bytes :=
  (afterAuthority url).dropWhile fun c => c ≠ 63 && c ≠ 35

/- The query ends at the first hash behind its mark. -/
def queryOf (url : Bytes) : Bytes :=
  match afterPath url with
  | [] => []
  | mark :: rest =>
      if mark = 63 then rest.takeWhile (· ≠ 35) else []

/- The path, or a slash, and a query that is not empty. -/
def requestTarget (url : Bytes) : Bytes :=
  (if pathOf url = [] then ascii "/" else pathOf url) ++
    if queryOf url = [] then []
    else ascii "?" ++ queryOf url

/- Where the path and the query begin in a URL. -/
def pathOffset (url : Bytes) : Nat :=
  url.length - (afterAuthority url).length

def queryOffset (url : Bytes) : Nat :=
  pathOffset url + (pathOf url).length + 1

end Network

------------------------------------------------------------
-- Parts of a Text
------------------------------------------------------------

namespace Network

namespace UrlText

variable (text : UrlText)

theorem dropWhile_append_of_head?
    {accepts : UInt8 → Bool}
    {run rest : Bytes}
    (hRun : ∀ c ∈ run, accepts c = true)
    (hRest : ∀ c ∈ rest.head?, accepts c = false) :
    (run ++ rest).dropWhile accepts = rest := by
  rw [List.dropWhile_append_of_pos hRun]
  cases rest with
  | nil => rfl
  | cons c rest =>
      have hStop := hRest c rfl
      simp [hStop]

/- What follows the authority. -/
def target : Bytes :=
  text.path ++ (marked 63 text.query ++
    marked 35 text.fragment)

theorem bytes_eq :
    text.bytes =
      text.scheme ++ (ascii "://" ++
        (text.authority ++ text.target)) := by
  simp only [bytes, front, target, List.append_assoc]

theorem scheme_ne_colon :
    ∀ c ∈ text.scheme, decide (c ≠ 58) = true := by
  intro c hMem
  apply decide_eq_true
  intro hColon
  have hAlpha := text.scheme_chars c hMem
  rw [hColon] at hAlpha
  exact absurd hAlpha (by decide)

/- The scheme ends at the first colon. -/
theorem takeWhile_bytes :
    text.bytes.takeWhile (fun c => decide (c ≠ 58)) =
      text.scheme := by
  have hMarks : ascii "://" = [58, 47, 47] := by decide
  rw [bytes_eq, hMarks]
  exact takeWhile_append_of_head? text.scheme_ne_colon
    (by simp)

theorem afterScheme_bytes :
    afterScheme text.bytes =
      text.authority ++ text.target := by
  have hMarks : ascii "://" = [58, 47, 47] := by decide
  rw [afterScheme, bytes_eq, hMarks,
    dropWhile_append_of_head? text.scheme_ne_colon (by simp)]
  rfl

theorem marked_head
    {mark : UInt8}
    {part : Option Bytes}
    {rest : Bytes}
    {c : UInt8}
    (hHead : c ∈ (marked mark part ++ rest).head?) :
    (part ≠ none ∧ c = mark) ∨
      (part = none ∧ c ∈ rest.head?) := by
  cases part with
  | none => exact Or.inr ⟨rfl, hHead⟩
  | some part =>
      have hMark : mark = c := by simpa [marked] using hHead
      exact Or.inl ⟨by simp, hMark.symm⟩

/- A slash or a question mark ends the authority. -/
theorem target_head
    {c : UInt8}
    (hHead : c ∈ text.target.head?) :
    c = 47 ∨ c = 63 := by
  by_cases hPath : text.path = []
  · rw [target, hPath, List.nil_append] at hHead
    rcases marked_head hHead with
      ⟨-, hMark⟩ | ⟨hQuery, hHead⟩
    · exact Or.inr hMark
    · rw [← List.append_nil (marked 35 _)] at hHead
      rcases marked_head hHead with
        ⟨hFragment, -⟩ | ⟨-, hNone⟩
      · rcases text.fragment_after hFragment with
          hSome | hSome
        · exact absurd hPath hSome
        · exact absurd hQuery hSome
      · simp at hNone
  · rw [target, List.head?_append_of_ne_nil _ hPath] at hHead
    exact Or.inl (text.path_head c hHead)

theorem authorityOf_bytes :
    authorityOf text.bytes = text.authority := by
  rw [authorityOf, afterScheme_bytes]
  refine takeWhile_append_of_head? ?_ ?_
  · intro c hMem
    simpa using text.authority_chars c hMem
  · intro c hHead
    rcases text.target_head hHead with rfl | rfl
    · rfl
    · rfl

theorem afterAuthority_bytes :
    afterAuthority text.bytes = text.target := by
  rw [afterAuthority, afterScheme_bytes]
  refine dropWhile_append_of_head? ?_ ?_
  · intro c hMem
    simpa using text.authority_chars c hMem
  · intro c hHead
    rcases text.target_head hHead with rfl | rfl
    · rfl
    · rfl

theorem pathOffset_bytes :
    pathOffset text.bytes = text.pathStart := by
  have hMarks : (ascii "://").length = 3 := by decide
  rw [pathOffset, afterAuthority_bytes, bytes_eq]
  simp only [List.length_append, hMarks, pathStart, hostStart]
  omega

/- A question mark or a hash ends the path. -/
theorem afterPath_head
    {c : UInt8}
    (hHead :
      c ∈ (marked 63 text.query ++
        marked 35 text.fragment).head?) :
    c = 63 ∨ c = 35 := by
  rcases marked_head hHead with ⟨-, hMark⟩ | ⟨-, hHead⟩
  · exact Or.inl hMark
  · rw [← List.append_nil (marked 35 _)] at hHead
    rcases marked_head hHead with ⟨-, hMark⟩ | ⟨-, hNone⟩
    · exact Or.inr hMark
    · simp at hNone

theorem pathOf_bytes : pathOf text.bytes = text.path := by
  rw [pathOf, afterAuthority_bytes, target]
  refine takeWhile_append_of_head? ?_ ?_
  · intro c hMem
    simpa using text.path_chars c hMem
  · intro c hHead
    rcases text.afterPath_head hHead with rfl | rfl
    · rfl
    · rfl

theorem afterPath_bytes :
    afterPath text.bytes =
      marked 63 text.query ++ marked 35 text.fragment := by
  rw [afterPath, afterAuthority_bytes, target]
  refine dropWhile_append_of_head? ?_ ?_
  · intro c hMem
    simpa using text.path_chars c hMem
  · intro c hHead
    rcases text.afterPath_head hHead with rfl | rfl
    · rfl
    · rfl

theorem queryOf_bytes :
    queryOf text.bytes = text.queryText := by
  rw [queryOf, afterPath_bytes]
  cases hQuery : text.query with
  | none =>
      cases hFragment : text.fragment with
      | none => simp [marked, queryText, hQuery]
      | some part => simp [marked, queryText, hQuery]
  | some query =>
      simp only [marked, List.cons_append, if_true,
        queryText, hQuery, Option.getD_some]
      refine takeWhile_append_of_head? ?_ ?_
      · intro c hMem
        exact decide_eq_true
          (text.query_chars query hQuery c hMem)
      · intro c hHead
        have hEnd :
            c ∈ (marked 35 text.fragment ++ []).head? := by
          rw [List.append_nil]
          exact hHead
        rcases marked_head hEnd with ⟨-, rfl⟩ | ⟨-, hNone⟩
        · rfl
        · simp at hNone

theorem queryOffset_bytes :
    queryOffset text.bytes = text.queryStart := by
  rw [queryOffset, pathOffset_bytes, pathOf_bytes]
  rfl

end UrlText

end Network

------------------------------------------------------------
-- Reading a Part Back
------------------------------------------------------------

namespace Network

/-
  A part that 16 bits can count and that is read from its own
  place, or from another one where the same text stands.
-/
def InReach
    (url : Bytes)
    (start : Nat)
    (part : Bytes) : Prop :=
  part.length < 2 ^ 16 ∧
    (start < 2 ^ 16 ∨ part <+: url.drop (start % 2 ^ 16))

/- A part of a URL with what stands before and behind it. -/
structure StandsAt
    (url : Bytes)
    (start : Nat)
    (part : Bytes) : Prop where
  fits : start + part.length ≤ url.length
  isPrefix : part <+: url.drop start

theorem StandsAt.of_append (front part rest : Bytes) :
    StandsAt (front ++ (part ++ rest)) front.length part where
  fits := by
    simp only [List.length_append]
    omega
  isPrefix := by
    rw [List.drop_left' rfl]
    exact List.prefix_append part rest

/- Two parts that stand one behind the other. -/
theorem StandsAt.split
    {url first second : Bytes}
    {start : Nat}
    (hBoth : StandsAt url start (first ++ second)) :
    StandsAt url start first ∧
      StandsAt url (start + first.length) second := by
  have hFits := hBoth.fits
  rw [List.length_append] at hFits
  obtain ⟨rest, hRest⟩ := hBoth.isPrefix
  refine ⟨⟨by omega, ?_⟩, ⟨by omega, ?_⟩⟩
  · exact (List.prefix_append first second).trans
      hBoth.isPrefix
  · rw [← List.drop_drop, ← hRest, List.append_assoc,
      List.drop_left' rfl]
    exact List.prefix_append second rest

theorem StandsAt.take
    {url part : Bytes}
    {start : Nat}
    (hStands : StandsAt url start part) :
    (url.drop start).take part.length = part :=
  (List.prefix_iff_eq_take.mp hStands.isPrefix).symm

variable {url part : Bytes}
variable {start : Nat}
variable {u : HttpParserUrl}
variable {uf : UrlField}

/- A field is read back at its own length, in 16 bits. -/
theorem component_length
    (hField : u.fieldData uf = fieldAt start part)
    (hStands : StandsAt url start part) :
    (u.component url uf).length = part.length % 2 ^ 16 := by
  have hFits := hStands.fits
  rw [HttpParserUrl.component, hField, fieldAt]
  by_cases hPart : part = []
  · simp [hPart]
  · have hOffset : start % 2 ^ 16 ≤ start :=
      Nat.mod_le start _
    have hLength : part.length % 2 ^ 16 ≤ part.length :=
      Nat.mod_le part.length _
    simp only [if_neg hPart, toUint16, List.length_take,
      List.length_drop]
    omega

/- A field is its part exactly when the part is in reach. -/
theorem component_eq_iff
    (hField : u.fieldData uf = fieldAt start part)
    (hStands : StandsAt url start part) :
    u.component url uf = part ↔ InReach url start part := by
  by_cases hPart : part = []
  · subst hPart
    have hNone : u.component url uf = [] := by
      rw [HttpParserUrl.component, hField, fieldAt_nil]
    simp [hNone, InReach]
  have hRead :
      u.component url uf =
        (url.drop (start % 2 ^ 16)).take
          (part.length % 2 ^ 16) := by
    rw [HttpParserUrl.component, hField, fieldAt,
      if_neg hPart]
    rfl
  constructor
  · intro hSame
    have hLength := component_length hField hStands
    rw [hSame] at hLength
    have hBound : part.length < 2 ^ 16 := by
      rw [hLength]
      exact Nat.mod_lt _ (by decide)
    refine ⟨hBound, Or.inr ?_⟩
    rw [← hSame, hRead]
    exact List.take_prefix _ _
  · rintro ⟨hBound, hPlace⟩
    have hPrefix : part <+: url.drop (start % 2 ^ 16) := by
      rcases hPlace with hStart | hElsewhere
      · rw [Nat.mod_eq_of_lt hStart]
        exact hStands.isPrefix
      · exact hElsewhere
    rw [hRead, Nat.mod_eq_of_lt hBound]
    exact (List.prefix_iff_eq_take.mp hPrefix).symm

namespace UrlText

variable (text : UrlText)

theorem standsAt_scheme :
    StandsAt text.bytes 0 text.scheme := by
  rw [bytes_eq]
  exact .of_append [] _ _

theorem standsAt_authority :
    StandsAt text.bytes text.hostStart text.authority := by
  have hMarks : (ascii "://").length = 3 := by decide
  have hFront :
      (text.scheme ++ ascii "://").length =
        text.hostStart := by
    rw [List.length_append, hMarks]
    rfl
  rw [bytes_eq, ← List.append_assoc, ← hFront]
  exact .of_append _ _ _

theorem standsAt_path :
    StandsAt text.bytes text.pathStart text.path := by
  have hMarks : (ascii "://").length = 3 := by decide
  have hFront :
      (text.scheme ++ ascii "://" ++ text.authority).length =
        text.pathStart := by
    simp only [List.length_append, hMarks, pathStart,
      hostStart]
  rw [← hFront]
  have hBytes :
      text.bytes =
        (text.scheme ++ ascii "://" ++ text.authority) ++
          (text.path ++ (marked 63 text.query ++
            marked 35 text.fragment)) := by
    simp only [bytes, front, List.append_assoc]
  rw [hBytes]
  exact .of_append _ _ _

theorem standsAt_query
    (hQuery : text.queryText ≠ []) :
    StandsAt text.bytes text.queryStart text.queryText := by
  cases hSome : text.query with
  | none => simp [queryText, hSome] at hQuery
  | some query =>
      have hFront :
          (text.front ++ [63]).length = text.queryStart := by
        simp [front_length, queryStart]
      have hText : text.queryText = query := by
        simp [queryText, hSome]
      rw [← hFront, hText]
      have hBytes :
          text.bytes =
            (text.front ++ [63]) ++
              (query ++ marked 35 text.fragment) := by
        simp [bytes, hSome, marked]
      rw [hBytes]
      exact .of_append _ _ _

end UrlText

end Network
