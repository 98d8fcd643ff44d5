import XMLHttpRequest.Library.Scanner
import XMLHttpRequest.Url.UrlParts

/-
  Which texts the scan of `http_parser_parse_url` survives.

  Behind the scheme the states of the scan fall into groups:
  those of the server part, of the path, of the query and of
  the fragment.  Each group reads a class of characters.

  Key definitions include:
    * `Network.isQueryChar`
    * `Network.isFragmentChar`
    * `Network.UrlText.Spelled`

  Key theorems include:
    * `Network.UrlScan.loop_isSome_iff`
    * `Network.UrlText.alive_iff_spelled`
-/

------------------------------------------------------------
-- Classes of Characters
------------------------------------------------------------

namespace Network

/- A query goes on over question marks. -/
def isQueryChar (c : UInt8) : Bool :=
  isUrlChar c || c = 63

/- A fragment goes on over question marks and hashes. -/
def isFragmentChar (c : UInt8) : Bool :=
  isUrlChar c || c = 63 || c = 35

/- A character of the server part that is no `@`. -/
def isServerChar (c : UInt8) : Bool :=
  isUserinfoChar c || c = 91 || c = 93

namespace UrlState

/- The groups of states behind the scheme. -/
def inServer (s : UrlState) : Prop :=
  s = .serverStart ∨ s = .server ∨ s = .serverWithAt

def inQuery (s : UrlState) : Prop :=
  s = .queryStringStart ∨ s = .queryString

def inFragment (s : UrlState) : Prop :=
  s = .fragmentStart ∨ s = .fragment

end UrlState

theorem parseUrlChar_absorbing :
    Scanner.Absorbing parseUrlChar .dead := by
  intro c
  simp [parseUrlChar]

/- Blanks and line breaks are no characters of a URL. -/
theorem isUrlChar_not_blank
    {c : UInt8}
    (hUrl : isUrlChar c = true) :
    (c = 32 || c = 13 || c = 10) = false := by
  have hBlank : isUrlChar 32 = false := by decide
  have hReturn : isUrlChar 13 = false := by decide
  have hFeed : isUrlChar 10 = false := by decide
  grind

variable {c : UInt8}

theorem reads_path
    {text : Bytes}
    (hText : ∀ c ∈ text, c ≠ 63 ∧ c ≠ 35) :
    Scanner.Reads parseUrlChar .dead (· = .path)
      (isUrlChar · = true) text where
  absorbing := parseUrlChar_absorbing
  alive := by simp
  reads := by
    intro c _ s hState hUrl
    have hBlank := isUrlChar_not_blank hUrl
    subst hState
    simp only [parseUrlChar]
    grind
  fatal := by
    intro c hMem s hState hOther
    have hMarks := hText c hMem
    subst hState
    simp only [parseUrlChar]
    grind

theorem reads_query
    {text : Bytes}
    (hText : ∀ c ∈ text, c ≠ 35) :
    Scanner.Reads parseUrlChar .dead UrlState.inQuery
      (isQueryChar · = true) text where
  absorbing := parseUrlChar_absorbing
  alive := by simp [UrlState.inQuery]
  reads := by
    intro c _ s hState hQuery
    have hBlank := isUrlChar_not_blank (c := c)
    refine .inr ?_
    rcases hState with rfl | rfl <;>
      simp only [parseUrlChar, isQueryChar] at hQuery ⊢ <;>
      grind
  fatal := by
    intro c hMem s hState hOther
    have hHash := hText c hMem
    rcases hState with rfl | rfl <;>
      simp only [parseUrlChar, isQueryChar] at hOther ⊢ <;>
      grind

theorem reads_fragment (text : Bytes) :
    Scanner.Reads parseUrlChar .dead UrlState.inFragment
      (isFragmentChar · = true) text where
  absorbing := parseUrlChar_absorbing
  alive := by simp [UrlState.inFragment]
  reads := by
    intro c _ s hState hFragment
    have hBlank := isUrlChar_not_blank (c := c)
    unfold UrlState.inFragment
    rcases hState with rfl | rfl <;>
      simp only [parseUrlChar, isFragmentChar]
        at hFragment ⊢ <;> grind
  fatal := by
    intro c _ s hState hOther
    rcases hState with rfl | rfl <;>
      simp only [parseUrlChar, isFragmentChar]
        at hOther ⊢ <;> grind

end Network

------------------------------------------------------------
-- Behind the Authority
------------------------------------------------------------

namespace Network

open Scanner (scan)

variable {s : UrlState}

theorem parseUrlChar_hash
    (hState : s = .path ∨ s.inQuery) :
    parseUrlChar s 35 = .fragmentStart := by
  rcases hState with rfl | rfl | rfl <;> decide

theorem parseUrlChar_mark
    (hState : s.inServer ∨ s = .path) :
    parseUrlChar s 63 = .queryStringStart := by
  rcases hState with (rfl | rfl | rfl) | rfl <;> decide

theorem parseUrlChar_slash_path
    (hState : s.inServer) :
    parseUrlChar s 47 = .path := by
  rcases hState with rfl | rfl | rfl <;> decide

theorem alive_of_inServer
    (hState : s.inServer) :
    s ≠ .dead := by
  rcases hState with rfl | rfl | rfl <;> decide

/- A fragment behind a path or a query. -/
theorem alive_fragment_iff
    (hState : s = .path ∨ s.inQuery)
    (fragment : Option Bytes) :
    scan parseUrlChar s (UrlText.marked 35 fragment) ≠ .dead ↔
      ∀ text ∈ fragment, ∀ c ∈ text,
        isFragmentChar c = true := by
  cases fragment with
  | none =>
      have hAlive : s ≠ .dead := by
        rcases hState with rfl | rfl | rfl <;> decide
      exact iff_of_true hAlive nofun
  | some text =>
      have hGroup : UrlState.inFragment .fragmentStart := .inl rfl
      have hAll := (reads_fragment text).alive_iff hGroup
      unfold UrlText.marked
      rw [Scanner.scan_cons, parseUrlChar_hash hState, hAll]
      simp

/- A query behind the server part or a path. -/
theorem alive_query_iff
    (hState : s.inServer ∨ s = .path)
    (query fragment : Option Bytes)
    (hQuery : ∀ text ∈ query, ∀ c ∈ text, c ≠ 35)
    (hFragment :
      fragment ≠ none → s = .path ∨ query ≠ none) :
    scan parseUrlChar s
        (UrlText.marked 63 query ++
          UrlText.marked 35 fragment) ≠ .dead ↔
      (∀ text ∈ query, ∀ c ∈ text, isQueryChar c = true) ∧
        ∀ text ∈ fragment, ∀ c ∈ text,
          isFragmentChar c = true := by
  cases query with
  | none =>
      unfold UrlText.marked
      rw [List.nil_append]
      by_cases hPath : s = .path
      · have hRest := alive_fragment_iff (.inl hPath) fragment
        unfold UrlText.marked at hRest
        rw [hRest]
        simp
      · have hNone : fragment = none := by
          by_contra hSome
          rcases hFragment hSome with hIs | hQuery
          · exact hPath hIs
          · exact hQuery rfl
        subst hNone
        have hAlive :=
          alive_of_inServer (hState.resolve_right hPath)
        exact iff_of_true hAlive ⟨nofun, nofun⟩
  | some text =>
      have hText := reads_query (hQuery text rfl)
      have hGroup :
          UrlState.inQuery .queryStringStart := .inl rfl
      have hEnter :
          scan parseUrlChar s
              (UrlText.marked 63 (some text) ++
                UrlText.marked 35 fragment) =
            scan parseUrlChar .queryStringStart
              (text ++ UrlText.marked 35 fragment) := by
        unfold UrlText.marked
        rw [List.cons_append, Scanner.scan_cons,
          parseUrlChar_mark hState]
      rw [hEnter,
        Scanner.alive_append_iff parseUrlChar_absorbing,
        hText.alive_iff hGroup]
      have hAfter
          (hAll : ∀ c ∈ text, isQueryChar c = true) :=
        alive_fragment_iff (.inr (hText.closed hGroup hAll))
          fragment
      constructor
      · rintro ⟨hAll, hRest⟩
        refine ⟨?_, (hAfter hAll).mp hRest⟩
        simpa using hAll
      · rintro ⟨hAll, hRest⟩
        have hAll : ∀ c ∈ text, isQueryChar c = true :=
          hAll text rfl
        exact ⟨hAll, (hAfter hAll).mpr hRest⟩

/- A path, a query and a fragment behind the authority. -/
theorem alive_target_iff
    (text : UrlText)
    (hState : s.inServer) :
    scan parseUrlChar s text.target ≠ .dead ↔
      (∀ c ∈ text.path, isUrlChar c = true) ∧
        (∀ query ∈ text.query, ∀ c ∈ query,
          isQueryChar c = true) ∧
          ∀ fragment ∈ text.fragment, ∀ c ∈ fragment,
            isFragmentChar c = true := by
  unfold UrlText.target
  cases hPath : text.path with
  | nil =>
      have hFragment :
          text.fragment ≠ none → s = .path ∨ text.query ≠ none := by
        intro hSome
        refine .inr ((text.fragment_after hSome).resolve_left ?_)
        exact fun hOther => hOther hPath
      rw [List.nil_append,
        alive_query_iff (.inl hState) _ _ text.query_chars
          hFragment]
      simp
  | cons first rest =>
      have hFirst : first = 47 :=
        text.path_head first (by rw [hPath]; rfl)
      have hMarks : ∀ c ∈ rest, c ≠ 63 ∧ c ≠ 35 := by
        intro c hMem
        refine text.path_chars c ?_
        rw [hPath]
        exact List.mem_cons_of_mem first hMem
      have hSlash : isUrlChar 47 = true := by decide
      have hRest := reads_path hMarks
      have hGroup : UrlState.path = .path := rfl
      rw [hFirst, List.cons_append, Scanner.scan_cons,
        parseUrlChar_slash_path hState,
        Scanner.alive_append_iff parseUrlChar_absorbing,
        hRest.alive_iff hGroup, List.forall_mem_cons]
      have hAfter
          (hAll : ∀ c ∈ rest, isUrlChar c = true) :=
        alive_query_iff (.inr (hRest.closed hGroup hAll))
          text.query text.fragment text.query_chars
          fun _ => .inl (hRest.closed hGroup hAll)
      constructor
      · rintro ⟨hAll, hBehind⟩
        exact ⟨⟨hSlash, hAll⟩, (hAfter hAll).mp hBehind⟩
      · rintro ⟨⟨_, hAll⟩, hBehind⟩
        exact ⟨hAll, (hAfter hAll).mpr hBehind⟩

end Network

------------------------------------------------------------
-- The Whole Text
------------------------------------------------------------

namespace Network

open Scanner (scan)

/- The scheme and its marks lead to the server part. -/
theorem scan_scheme
    {scheme : Bytes}
    (hChars : ∀ c ∈ scheme, isAlpha c = true)
    (hNonempty : scheme ≠ []) :
    scan parseUrlChar .spacesBeforeUrl
      (scheme ++ ascii "://") = .serverStart := by
  have hMarks : ascii "://" = [58, 47, 47] := by decide
  have hFirst
      (c : UInt8)
      (hAlpha : isAlpha c = true) :
      parseUrlChar .spacesBeforeUrl c = .schema ∧
        parseUrlChar .schema c = .schema := by
    have hBlank : isAlpha 32 = false := by decide
    have hReturn : isAlpha 13 = false := by decide
    have hFeed : isAlpha 10 = false := by decide
    have hSlash : isAlpha 47 = false := by decide
    have hStar : isAlpha 42 = false := by decide
    simp only [parseUrlChar]
    grind
  have hStays
      (text : Bytes)
      (hText : ∀ c ∈ text, isAlpha c = true) :
      scan parseUrlChar .schema text = .schema := by
    induction text with
    | nil => rfl
    | cons c text ih =>
        rw [List.forall_mem_cons] at hText
        rw [Scanner.scan_cons, (hFirst c hText.1).2]
        exact ih hText.2
  cases scheme with
  | nil => exact absurd rfl hNonempty
  | cons c rest =>
      rw [List.forall_mem_cons] at hChars
      rw [List.cons_append, Scanner.scan_cons,
        (hFirst c hChars.1).1, Scanner.scan_append,
        hStays rest hChars.2, hMarks]
      decide

/- Without a slash or a question mark the server part lasts. -/
theorem inServer_of_alive
    {authority : Bytes}
    (hChars : ∀ c ∈ authority, c ≠ 47 ∧ c ≠ 63)
    (hAlive :
      scan parseUrlChar .serverStart authority ≠ .dead) :
    (scan parseUrlChar .serverStart authority).inServer := by
  refine Scanner.group_of_alive parseUrlChar_absorbing ?_
    (.inl rfl) hAlive
  intro c hMem s hState hNext
  rcases parseUrlChar_server c hState with
    hDead | ⟨hSlash, _⟩ | ⟨hMark, _⟩ | ⟨_, hAt⟩ |
      ⟨_, _, _, hServer⟩
  · exact absurd hDead hNext
  · exact absurd hSlash (hChars c hMem).1
  · exact absurd hMark (hChars c hMem).2
  · exact .inr (.inr hAt)
  · exact .inr (.inl hServer)

namespace UrlText

/- The parts behind the authority are of their classes. -/
structure Spelled (text : UrlText) : Prop where
  path : ∀ c ∈ text.path, isUrlChar c = true
  query :
    ∀ query ∈ text.query, ∀ c ∈ query, isQueryChar c = true
  fragment :
    ∀ fragment ∈ text.fragment, ∀ c ∈ fragment,
      isFragmentChar c = true

/- A text is survived if its parts are of their classes. -/
theorem alive_iff_spelled (text : UrlText) :
    scan parseUrlChar .spacesBeforeUrl text.bytes ≠ .dead ↔
      scan parseUrlChar .serverStart text.authority ≠ .dead ∧
        text.Spelled := by
  rw [bytes_eq, ← List.append_assoc, Scanner.scan_append,
    scan_scheme text.scheme_chars text.scheme_nonempty,
    Scanner.alive_append_iff parseUrlChar_absorbing]
  constructor
  · rintro ⟨hServer, hTarget⟩
    have hState := inServer_of_alive text.authority_chars hServer
    rcases (alive_target_iff text hState).mp hTarget with
      ⟨hPath, hQuery, hFragment⟩
    exact ⟨hServer, hPath, hQuery, hFragment⟩
  · rintro ⟨hServer, hPath, hQuery, hFragment⟩
    have hState := inServer_of_alive text.authority_chars hServer
    exact ⟨hServer,
      (alive_target_iff text hState).mpr
        ⟨hPath, hQuery, hFragment⟩⟩

end UrlText

end Network

------------------------------------------------------------
-- Scans and Their States
------------------------------------------------------------

namespace Network

namespace UrlScan

theorem tracks :
    Scanner.Tracks char UrlScan.s parseUrlChar .dead where
  absorbing := parseUrlChar_absorbing
  state_eq := by
    intro scan p ch next hChar
    cases hField : (parseUrlChar scan.s ch).field with
    | none =>
        rw [eq_of_delimiter hChar rfl hField]
    | some uf =>
        rw [eq_of_field hChar rfl hField]
        rfl
  isSome_iff := by
    intro scan p ch
    constructor
    · intro hSome hDead
      rw [char_of_dead hDead] at hSome
      cases hSome
    · intro hAlive
      cases hField : (parseUrlChar scan.s ch).field with
      | none =>
          rw [char_of_delimiter rfl hField hAlive]
          rfl
      | some uf =>
          rw [char_of_field rfl hField]
          rfl

theorem loop_eq_readAt
    (scan : UrlScan)
    (p : Nat)
    (buf : Bytes) :
    scan.loop p buf = Scanner.readAt char scan p buf := by
  induction buf generalizing scan p with
  | nil => rfl
  | cons ch buf ih =>
      rw [loop, Scanner.readAt]
      congr 1
      funext next
      exact ih next (p + 1)

/- A scan goes through where its states do not die. -/
theorem loop_isSome_iff (buf : Bytes) :
    (({ s := .spacesBeforeUrl } : UrlScan).loop 0
        buf).isSome = true ↔
      Scanner.scan parseUrlChar .spacesBeforeUrl buf ≠
        .dead := by
  rw [loop_eq_readAt]
  exact tracks.readAt_isSome_iff buf nofun

end UrlScan

end Network
