import XMLHttpRequest.Url.UrlParser

/-
  What a URL is made of that `http_parser_parse_url` scans.

  The states of the scan follow the parts of the text: a
  scheme, an authority up to the first slash or question mark,
  a path, a query and a fragment.  A field that the scan has
  set holds the place and the length of its part, both in 16
  bits.

  Key definitions include:
    * `Network.UrlText`
    * `Network.fieldAt`
    * `Network.Scanned`

  Key theorems include:
    * `Network.scanned_char`
    * `Network.scanned_loop`
    * `Network.urlText_of_parse`
-/

------------------------------------------------------------
-- Parts of a URL
------------------------------------------------------------

namespace Network

/- `field_data` of a part, unset where the part is empty. -/
def fieldAt (start : Nat) (part : Bytes) : Option FieldData :=
  if part = [] then none
  else some ⟨toUint16 start, toUint16 part.length⟩

/- A URL with a scheme and what may follow its authority. -/
structure UrlText where
  scheme : Bytes
  authority : Bytes := []
  path : Bytes := []
  query : Option Bytes := none
  fragment : Option Bytes := none
  scheme_chars : ∀ c ∈ scheme, isAlpha c = true
  scheme_nonempty : scheme ≠ []
  authority_chars : ∀ c ∈ authority, c ≠ 47 ∧ c ≠ 63
  path_head : ∀ c ∈ path.head?, c = 47
  path_chars : ∀ c ∈ path, c ≠ 63 ∧ c ≠ 35
  query_chars : ∀ text ∈ query, ∀ c ∈ text, c ≠ 35
  fragment_after :
    fragment ≠ none → path ≠ [] ∨ query ≠ none

namespace UrlText

variable (text : UrlText)

/- Where the parts begin. -/
def hostStart : Nat :=
  text.scheme.length + 3

def pathStart : Nat :=
  text.hostStart + text.authority.length

def queryStart : Nat :=
  text.pathStart + text.path.length + 1

/- The query behind its question mark, if there is one. -/
def queryText : Bytes :=
  text.query.getD []

/- A part that a mark introduces. -/
def marked (mark : UInt8) : Option Bytes → Bytes
  | none => []
  | some part => mark :: part

def front : Bytes :=
  text.scheme ++ ascii "://" ++ text.authority ++ text.path

def bytes : Bytes :=
  text.front ++ marked 63 text.query ++
    marked 35 text.fragment

/- The fields of the parts, the fragment aside. -/
def fields : UrlField → Option FieldData
  | .schema => fieldAt 0 text.scheme
  | .host => fieldAt text.hostStart text.authority
  | .path => fieldAt text.pathStart text.path
  | .query => fieldAt text.queryStart text.queryText
  | .port => none
  | .fragment => none
  | .userinfo => none

/- The state after a text, by its last part. -/
def EndsIn : UrlState → Prop
  | .serverStart =>
      text.authority = [] ∧ text.path = [] ∧
        text.query = none ∧ text.fragment = none
  | .server | .serverWithAt =>
      text.authority ≠ [] ∧ text.path = [] ∧
        text.query = none ∧ text.fragment = none
  | .path =>
      text.path ≠ [] ∧ text.query = none ∧
        text.fragment = none
  | .queryStringStart =>
      text.query = some [] ∧ text.fragment = none
  | .queryString =>
      text.queryText ≠ [] ∧ text.fragment = none
  | .fragmentStart | .fragment => text.fragment ≠ none
  | _ => False

end UrlText

end Network

------------------------------------------------------------
-- The State After a Byte
------------------------------------------------------------

namespace Network

theorem isUrlChar_ne
    {ch : UInt8}
    (hUrl : isUrlChar ch = true) :
    ch ≠ 63 ∧ ch ≠ 35 := by
  constructor
  · rintro rfl
    revert hUrl
    decide
  · rintro rfl
    revert hUrl
    decide

theorem parseUrlChar_schema
    (ch : UInt8)
    {s : UrlState}
    (hSchema : s = .schema) :
    parseUrlChar s ch = .dead ∨
      (isAlpha ch = true ∧ parseUrlChar s ch = .schema) ∨
      (ch = 58 ∧ parseUrlChar s ch = .schemaSlash) := by
  subst hSchema
  simp only [parseUrlChar]
  grind

theorem parseUrlChar_slash
    (ch : UInt8)
    {s : UrlState}
    (hSlash : s = .schemaSlash ∨ s = .schemaSlashSlash) :
    parseUrlChar s ch = .dead ∨
      (ch = 47 ∧
        parseUrlChar s ch =
          if s = .schemaSlash then .schemaSlashSlash
          else .serverStart) := by
  rcases hSlash with rfl | rfl
  all_goals
    simp only [parseUrlChar]
    grind

theorem parseUrlChar_first (ch : UInt8) :
    parseUrlChar .spacesBeforeUrl ch = .dead ∨
      (isAlpha ch = false ∧
        parseUrlChar .spacesBeforeUrl ch = .path) ∨
      (isAlpha ch = true ∧
        parseUrlChar .spacesBeforeUrl ch = .schema) := by
  have hSlash : isAlpha 47 = false := by decide
  have hStar : isAlpha 42 = false := by decide
  simp only [parseUrlChar]
  grind

theorem parseServerChar_cases (ch : UInt8) :
    (ch = 47 ∧ parseServerChar ch = .path) ∨
      (ch = 63 ∧ parseServerChar ch = .queryStringStart) ∨
      (ch = 64 ∧ parseServerChar ch = .serverWithAt) ∨
      (ch ≠ 47 ∧ ch ≠ 63 ∧ ch ≠ 64 ∧
        (parseServerChar ch = .server ∨
          parseServerChar ch = .dead)) := by
  unfold parseServerChar
  grind

/- The three states in the server part share their branches. -/
theorem parseUrlChar_eq_parseServerChar
    {ch : UInt8}
    {s : UrlState}
    (hServer :
      s = .serverStart ∨ s = .server ∨ s = .serverWithAt)
    (hAlive : parseUrlChar s ch ≠ .dead) :
    parseUrlChar s ch = parseServerChar ch := by
  rcases hServer with rfl | rfl | rfl
  · simp only [parseUrlChar] at hAlive ⊢
    split
    · simp_all
    · rfl
  · simp only [parseUrlChar] at hAlive ⊢
    split
    · simp_all
    · rfl
  · simp only [parseUrlChar] at hAlive ⊢
    split
    · simp_all
    · split
      · simp_all
      · rfl

theorem parseUrlChar_server
    (ch : UInt8)
    {s : UrlState}
    (hServer :
      s = .serverStart ∨ s = .server ∨ s = .serverWithAt) :
    parseUrlChar s ch = .dead ∨
      (ch = 47 ∧ parseUrlChar s ch = .path) ∨
      (ch = 63 ∧ parseUrlChar s ch = .queryStringStart) ∨
      (ch = 64 ∧ parseUrlChar s ch = .serverWithAt) ∨
      (ch ≠ 47 ∧ ch ≠ 63 ∧ ch ≠ 64 ∧
        parseUrlChar s ch = .server) := by
  by_cases hAlive : parseUrlChar s ch = .dead
  · exact Or.inl hAlive
  · have hSame :=
      parseUrlChar_eq_parseServerChar hServer hAlive
    rw [hSame] at hAlive ⊢
    have hCases := parseServerChar_cases ch
    grind

theorem parseUrlChar_path
    (ch : UInt8)
    {s : UrlState}
    (hPath : s = .path) :
    parseUrlChar s ch = .dead ∨
      (ch ≠ 63 ∧ ch ≠ 35 ∧ parseUrlChar s ch = .path) ∨
      (ch = 63 ∧ parseUrlChar s ch = .queryStringStart) ∨
      (ch = 35 ∧ parseUrlChar s ch = .fragmentStart) := by
  have hUrl : isUrlChar ch = true → ch ≠ 63 ∧ ch ≠ 35 :=
    isUrlChar_ne
  subst hPath
  simp only [parseUrlChar]
  grind

theorem parseUrlChar_query
    (ch : UInt8)
    {s : UrlState}
    (hQuery : s = .queryStringStart ∨ s = .queryString) :
    parseUrlChar s ch = .dead ∨
      (ch ≠ 35 ∧ parseUrlChar s ch = .queryString) ∨
      (ch = 35 ∧ parseUrlChar s ch = .fragmentStart) := by
  have hUrl : isUrlChar ch = true → ch ≠ 63 ∧ ch ≠ 35 :=
    isUrlChar_ne
  rcases hQuery with rfl | rfl
  all_goals
    simp only [parseUrlChar]
    grind

theorem parseUrlChar_fragment
    (ch : UInt8)
    {s : UrlState}
    (hFragment : s = .fragmentStart ∨ s = .fragment) :
    parseUrlChar s ch = .dead ∨
      parseUrlChar s ch = .fragment ∨
      parseUrlChar s ch = .fragmentStart := by
  rcases hFragment with rfl | rfl
  all_goals
    simp only [parseUrlChar]
    grind

end Network

------------------------------------------------------------
-- One Byte of the Scan
------------------------------------------------------------

namespace Network

namespace UrlScan

variable {scan : UrlScan}
variable {p : Nat}
variable {ch : UInt8}
variable {s : UrlState}

/- The scan after a byte of a field. -/
def extend
    (scan : UrlScan)
    (p : Nat)
    (s : UrlState)
    (uf : UrlField) : UrlScan where
  s := s
  oldUf := some uf
  foundAt := scan.foundAt || decide (s = .serverWithAt)
  u :=
    if scan.oldUf = some uf then
      scan.u.changeField uf FieldData.grow
    else scan.u.setField uf (FieldData.start p 1)

/- The other fields stay as they are. -/
theorem extend_fieldData_of_ne
    {uf other : UrlField}
    (hOther : other ≠ uf) :
    (scan.extend p s uf).u.fieldData other =
      scan.u.fieldData other := by
  unfold extend
  split
  · exact Function.update_of_ne hOther _ _
  · exact Function.update_of_ne hOther _ _

theorem char_of_dead
    (hState : parseUrlChar scan.s ch = .dead) :
    scan.char p ch = none := by
  simp [char, hState]

/- A delimiter changes the state only. -/
theorem char_of_delimiter
    (hState : parseUrlChar scan.s ch = s)
    (hField : s.field = none)
    (hAlive : s ≠ .dead) :
    scan.char p ch = some { scan with s := s } := by
  cases s with
  | dead => contradiction
  | _ => simp only [char, hState, hField]

/- Any other byte belongs to the field of the new state. -/
theorem char_of_field
    (hState : parseUrlChar scan.s ch = s)
    {uf : UrlField}
    (hField : s.field = some uf) :
    scan.char p ch = some (scan.extend p s uf) := by
  cases s with
  | dead => simp [UrlState.field] at hField
  | _ => simp only [char, hState, hField, extend]

/- A step that is taken does not lead to the dead state. -/
theorem alive_of_char
    {next : UrlScan}
    (hChar : scan.char p ch = some next) :
    parseUrlChar scan.s ch ≠ .dead := by
  intro hState
  rw [char_of_dead hState] at hChar
  exact absurd hChar (by simp)

theorem eq_of_delimiter
    {next : UrlScan}
    (hChar : scan.char p ch = some next)
    (hState : parseUrlChar scan.s ch = s)
    (hField : s.field = none) :
    next = { scan with s := s } := by
  have hAlive : s ≠ .dead := hState ▸ alive_of_char hChar
  rw [char_of_delimiter hState hField hAlive] at hChar
  exact (Option.some.inj hChar).symm

theorem eq_of_field
    {next : UrlScan}
    (hChar : scan.char p ch = some next)
    (hState : parseUrlChar scan.s ch = s)
    {uf : UrlField}
    (hField : s.field = some uf) :
    next = scan.extend p s uf := by
  rw [char_of_field hState hField] at hChar
  exact (Option.some.inj hChar).symm

end UrlScan

theorem fieldAt_nil (start : Nat) :
    fieldAt start [] = none :=
  rfl

theorem fieldAt_concat
    (start : Nat)
    (part : Bytes)
    (c : UInt8) :
    fieldAt start (part ++ [c]) =
      some ⟨toUint16 start, toUint16 (part.length + 1)⟩ := by
  simp [fieldAt]

/- A byte makes its field one byte longer. -/
theorem UrlScan.extend_fieldData
    {scan : UrlScan}
    {uf : UrlField}
    {p start : Nat}
    {part : Bytes}
    (hField : scan.u.fieldData uf = fieldAt start part)
    (hOld : scan.oldUf = some uf ↔ part ≠ [])
    (hPlace : p = start + part.length)
    (s : UrlState)
    (c : UInt8) :
    (scan.extend p s uf).u.fieldData uf =
      fieldAt start (part ++ [c]) := by
  rw [fieldAt_concat]
  by_cases hPart : part = []
  · have hFirst : scan.oldUf ≠ some uf := by
      simpa [hPart] using hOld
    subst hPart hPlace
    simp only [extend, if_neg hFirst, HttpParserUrl.setField,
      Function.update_self]
    rfl
  · simp only [extend, if_pos (hOld.mpr hPart),
      HttpParserUrl.changeField, Function.update_self, hField,
      fieldAt, if_neg hPart, Option.map_some, FieldData.grow]
    congr 2
    simp only [toUint16]
    omega

end Network

------------------------------------------------------------
-- The Scan of a Text
------------------------------------------------------------

namespace Network

namespace UrlText

variable (text : UrlText)

/- The field of the last byte before a fragment. -/
def lastField : UrlField :=
  if text.queryText ≠ [] then .query
  else if text.path ≠ [] then .path
  else if text.authority ≠ [] then .host
  else .schema

/- What the scan has recorded of a text. -/
structure Recorded (scan : UrlScan) : Prop where
  oldUf :
    text.fragment = none → scan.oldUf = some text.lastField
  foundAt :
    scan.foundAt = decide ((64 : UInt8) ∈ text.authority)
  fields :
    ∀ uf, uf ≠ .fragment →
      scan.u.fieldData uf = text.fields uf

/- A text of which only the scheme has been read. -/
def OnlyScheme : Prop :=
  text.authority = [] ∧ text.path = [] ∧
    text.query = none ∧ text.fragment = none

theorem front_length :
    text.front.length = text.pathStart + text.path.length := by
  have hMark : (ascii "://").length = 3 := by decide
  simp only [front, List.length_append, hMark, pathStart,
    hostStart]

end UrlText

/- The marks behind a scheme, by the state. -/
def UrlState.schemeMark : UrlState → Option Bytes
  | .schema => some []
  | .schemaSlash => some [58]
  | .schemaSlashSlash => some [58, 47]
  | _ => none

/- The states of a URL that has no scheme. -/
def UrlState.isRelative : UrlState → Bool
  | .path | .queryStringStart | .queryString => true
  | .fragmentStart | .fragment => true
  | _ => false

/- What is known of the scan after a text. -/
inductive Scanned : Bytes → UrlScan → Prop
  | start :
      Scanned [] { s := .spacesBeforeUrl }
  | relative
      {first : UInt8} {rest : Bytes} {scan : UrlScan} :
      isAlpha first = false →
        scan.s.isRelative = true →
          scan.u.fieldData .schema = none →
            Scanned (first :: rest) scan
  | scheme {text : UrlText} {mark : Bytes} {scan : UrlScan} :
      text.OnlyScheme →
        scan.s.schemeMark = some mark →
          text.Recorded scan →
            Scanned (text.scheme ++ mark) scan
  | parts {text : UrlText} {scan : UrlScan} :
      text.EndsIn scan.s →
        text.Recorded scan →
          Scanned text.bytes scan

end Network

------------------------------------------------------------
-- Longer Texts
------------------------------------------------------------

namespace Network

namespace UrlText

variable (text : UrlText)
variable {ch : UInt8}

/- One byte more of the scheme. -/
def addScheme (hCh : isAlpha ch = true) : UrlText :=
  { text with
    scheme := text.scheme ++ [ch]
    scheme_chars := by
      simpa [or_imp, forall_and, hCh] using text.scheme_chars
    scheme_nonempty := by simp }

def addAuthority (hCh : ch ≠ 47 ∧ ch ≠ 63) : UrlText :=
  { text with
    authority := text.authority ++ [ch]
    authority_chars := by
      intro c hMem
      rcases List.mem_append.mp hMem with hOld | hNew
      · exact text.authority_chars c hOld
      · exact List.mem_singleton.mp hNew ▸ hCh }

def addPath
    (hHead : text.path = [] → ch = 47)
    (hCh : ch ≠ 63 ∧ ch ≠ 35) : UrlText :=
  { text with
    path := text.path ++ [ch]
    path_head := by
      intro c hHeadMem
      by_cases hPath : text.path = []
      · have hSame : ch = c := by
          simpa [hPath] using hHeadMem
        exact hSame ▸ hHead hPath
      · rw [List.head?_append_of_ne_nil _ hPath] at hHeadMem
        exact text.path_head c hHeadMem
    path_chars := by
      intro c hMem
      rcases List.mem_append.mp hMem with hOld | hNew
      · exact text.path_chars c hOld
      · exact List.mem_singleton.mp hNew ▸ hCh
    fragment_after := fun _ => Or.inl (by simp) }

/- A question mark behind the path. -/
def startQuery : UrlText :=
  { text with
    query := some []
    query_chars := by simp
    fragment_after := fun _ => Or.inr (by simp) }

def addQuery (hCh : ch ≠ 35) : UrlText :=
  { text with
    query := some (text.queryText ++ [ch])
    query_chars := by
      intro part hPart c hMem
      cases hPart
      rcases List.mem_append.mp hMem with hOld | hNew
      · cases hQuery : text.query with
        | none => simp [queryText, hQuery] at hOld
        | some part =>
            rw [queryText, hQuery] at hOld
            exact text.query_chars part hQuery c hOld
      · exact List.mem_singleton.mp hNew ▸ hCh
    fragment_after := fun _ => Or.inr (by simp) }

/- A hash, and what follows it. -/
def addFragment
    (ch : UInt8)
    (hAfter : text.path ≠ [] ∨ text.query ≠ none) : UrlText :=
  { text with
    fragment :=
      match text.fragment with
      | none => some []
      | some part => some (part ++ [ch])
    fragment_after := fun _ => hAfter }

theorem bytes_addAuthority
    (hPath : text.path = [])
    (hQuery : text.query = none)
    (hFragment : text.fragment = none)
    (hCh : ch ≠ 47 ∧ ch ≠ 63) :
    (text.addAuthority hCh).bytes = text.bytes ++ [ch] := by
  simp [bytes, front, marked, addAuthority, hPath, hQuery,
    hFragment]

theorem bytes_addPath
    (hQuery : text.query = none)
    (hFragment : text.fragment = none)
    (hHead : text.path = [] → ch = 47)
    (hCh : ch ≠ 63 ∧ ch ≠ 35) :
    (text.addPath hHead hCh).bytes = text.bytes ++ [ch] := by
  simp [bytes, front, marked, addPath, hQuery, hFragment]

theorem bytes_startQuery
    (hQuery : text.query = none)
    (hFragment : text.fragment = none) :
    text.startQuery.bytes = text.bytes ++ [63] := by
  simp [bytes, front, marked, startQuery, hQuery, hFragment]

theorem bytes_addQuery
    (hQuery : text.query ≠ none)
    (hFragment : text.fragment = none)
    (hCh : ch ≠ 35) :
    (text.addQuery hCh).bytes = text.bytes ++ [ch] := by
  obtain ⟨part, hPart⟩ := Option.ne_none_iff_exists'.mp hQuery
  simp [bytes, front, marked, addQuery, queryText, hPart,
    hFragment]

theorem bytes_addFragment
    (hAfter : text.path ≠ [] ∨ text.query ≠ none)
    (hCh : text.fragment = none → ch = 35) :
    (text.addFragment ch hAfter).bytes =
      text.bytes ++ [ch] := by
  cases hFragment : text.fragment with
  | none =>
      simp [bytes, front, marked, addFragment, hFragment,
        hCh hFragment]
  | some part =>
      simp [bytes, front, marked, addFragment, hFragment]

end UrlText

end Network

------------------------------------------------------------
-- What a Byte Adds
------------------------------------------------------------

namespace Network

variable {scan next : UrlScan}
variable {text : UrlText}
variable {ch : UInt8}

namespace UrlText.Recorded

/- A delimiter leaves the record as it is. -/
theorem of_delimiter
    {after : UrlText}
    (hRecorded : text.Recorded scan)
    {s : UrlState}
    (hLast :
      after.fragment = none →
        text.fragment = none ∧
          after.lastField = text.lastField)
    (hAuthority : after.authority = text.authority)
    (hFields : after.fields = text.fields) :
    after.Recorded { scan with s := s } where
  oldUf hNone := by
    rw [(hLast hNone).2]
    exact hRecorded.oldUf (hLast hNone).1
  foundAt := by
    rw [hAuthority]
    exact hRecorded.foundAt
  fields := by
    rw [hFields]
    exact hRecorded.fields

/- A byte of a part is recorded in the field of the part. -/
theorem of_field
    {after : UrlText}
    (hRecorded : text.Recorded scan)
    (start : Nat)
    (part : Bytes)
    (ch : UInt8)
    {s : UrlState}
    {uf : UrlField}
    {p : Nat}
    (hPart : text.fields uf = fieldAt start part)
    (hFragment : uf ≠ .fragment)
    (hNone : text.fragment = none)
    (hLast : text.lastField = uf ↔ part ≠ [])
    (hPlace : p = start + part.length)
    (hAfterLast : after.lastField = uf)
    (hAfterFields :
      after.fields =
        Function.update text.fields uf
          (fieldAt start (part ++ [ch])))
    (hAuthority :
      decide ((64 : UInt8) ∈ after.authority) =
        (decide ((64 : UInt8) ∈ text.authority) ||
          decide (s = .serverWithAt))) :
    after.Recorded (scan.extend p s uf) where
  oldUf _ := by
    rw [hAfterLast]
    rfl
  foundAt := by
    rw [hAuthority, ← hRecorded.foundAt]
    rfl
  fields other hOther := by
    have hOld : scan.oldUf = some uf ↔ part ≠ [] := by
      rw [hRecorded.oldUf hNone, Option.some.injEq]
      exact hLast
    have hField : scan.u.fieldData uf = fieldAt start part :=
      (hRecorded.fields uf hFragment).trans hPart
    rw [hAfterFields]
    by_cases hSame : other = uf
    · subst hSame
      rw [scan.extend_fieldData hField hOld hPlace,
        Function.update_self]
    · rw [UrlScan.extend_fieldData_of_ne hSame,
        Function.update_of_ne hSame]
      exact hRecorded.fields other hOther

theorem addScheme
    (hRecorded : text.Recorded scan)
    (hOnly : text.OnlyScheme)
    (hCh : isAlpha ch = true) :
    (text.addScheme hCh).Recorded
      (scan.extend text.scheme.length .schema .schema) := by
  obtain ⟨hAuthority, hPath, hQuery, hFragment⟩ := hOnly
  have hLast : text.lastField = .schema := by
    simp [lastField, queryText, hAuthority, hPath, hQuery]
  refine hRecorded.of_field 0 text.scheme ch (s := .schema)
    rfl (by simp) hFragment ?_ (by simp) hLast ?_
      (Bool.or_false _).symm
  · simp [hLast, text.scheme_nonempty]
  · funext uf
    cases uf with
    | host =>
        simp [UrlText.fields, UrlText.addScheme, hAuthority,
          fieldAt_nil]
    | path =>
        simp [UrlText.fields, UrlText.addScheme, hPath,
          fieldAt_nil]
    | query =>
        simp [UrlText.fields, UrlText.addScheme, queryText, hQuery,
          fieldAt_nil]
    | _ => rfl

theorem addAuthority
    (hRecorded : text.Recorded scan)
    (hPath : text.path = [])
    (hQuery : text.query = none)
    (hFragment : text.fragment = none)
    (hCh : ch ≠ 47 ∧ ch ≠ 63)
    {s : UrlState}
    (hAt : s = .serverWithAt ↔ ch = 64) :
    (text.addAuthority hCh).Recorded
      (scan.extend text.bytes.length s .host) := by
  refine hRecorded.of_field text.hostStart text.authority ch
    rfl (by simp) hFragment ?_ ?_ ?_ ?_ ?_
  · by_cases hAuthority : text.authority = []
    · simp [lastField, queryText, hQuery, hPath, hAuthority]
    · simp [lastField, queryText, hQuery, hPath, hAuthority]
  · simp [bytes, hQuery, hFragment, marked, front_length,
      hPath, pathStart]
  · simp [lastField, UrlText.addAuthority, hPath, queryText,
      hQuery]
  · funext uf
    cases uf with
    | path =>
        simp [UrlText.fields, UrlText.addAuthority, hPath,
          fieldAt_nil]
    | query =>
        simp [UrlText.fields, UrlText.addAuthority, queryText,
          hQuery, fieldAt_nil]
    | _ => rfl
  · simp [UrlText.addAuthority, hAt, eq_comm]

theorem addPath
    (hRecorded : text.Recorded scan)
    (hQuery : text.query = none)
    (hFragment : text.fragment = none)
    (hHead : text.path = [] → ch = 47)
    (hCh : ch ≠ 63 ∧ ch ≠ 35) :
    (text.addPath hHead hCh).Recorded
      (scan.extend text.bytes.length .path .path) := by
  refine hRecorded.of_field text.pathStart text.path ch
    (s := .path) rfl (by simp) hFragment ?_ ?_ ?_ ?_
      (Bool.or_false _).symm
  · by_cases hPath : text.path = []
    · by_cases hAuthority : text.authority = []
      · simp [lastField, queryText, hQuery, hPath, hAuthority]
      · simp [lastField, queryText, hQuery, hPath, hAuthority]
    · simp [lastField, queryText, hQuery, hPath]
  · simp [bytes, hQuery, hFragment, marked, front_length]
  · simp [lastField, UrlText.addPath, queryText, hQuery]
  · funext uf
    cases uf with
    | query =>
        simp [UrlText.fields, UrlText.addPath, queryText, hQuery,
          fieldAt_nil]
    | _ => rfl

theorem startQuery
    (hRecorded : text.Recorded scan)
    (hQuery : text.query = none)
    (hFragment : text.fragment = none)
    (s : UrlState) :
    text.startQuery.Recorded { scan with s := s } := by
  have hNone : text.queryText = [] := by
    rw [queryText, hQuery]
    rfl
  refine hRecorded.of_delimiter (fun _ => ⟨hFragment, ?_⟩)
    rfl ?_
  · rw [lastField, lastField, hNone]
    rfl
  · funext uf
    cases uf with
    | query =>
        simp [UrlText.fields, UrlText.startQuery, queryText, hQuery,
          fieldAt_nil]
    | _ => rfl

theorem addQuery
    (hRecorded : text.Recorded scan)
    (hQuery : text.query ≠ none)
    (hFragment : text.fragment = none)
    (hCh : ch ≠ 35) :
    (text.addQuery hCh).Recorded
      (scan.extend text.bytes.length .queryString
        .query) := by
  obtain ⟨part, hPart⟩ := Option.ne_none_iff_exists'.mp hQuery
  refine hRecorded.of_field text.queryStart text.queryText ch
    (s := .queryString) rfl (by simp) hFragment ?_ ?_ ?_ ?_
      (Bool.or_false _).symm
  · by_cases hText : text.queryText = []
    · by_cases hPath : text.path = []
      · by_cases hAuthority : text.authority = []
        · simp [lastField, hText, hPath, hAuthority]
        · simp [lastField, hText, hPath, hAuthority]
      · simp [lastField, hText, hPath]
    · simp [lastField, hText]
  · simp only [bytes, hPart, hFragment, marked, queryText,
      queryStart, front_length, List.length_append,
      List.length_cons, List.length_nil, Option.getD_some]
    omega
  · simp [lastField, UrlText.addQuery, queryText]
  · funext uf
    cases uf with
    | _ => rfl

/- Nothing of a fragment is recorded. -/
theorem addFragment
    {after : UrlScan}
    (hRecorded : text.Recorded scan)
    (hAfter : text.path ≠ [] ∨ text.query ≠ none)
    (hFoundAt : after.foundAt = scan.foundAt)
    (hFields :
      ∀ uf, uf ≠ .fragment →
        after.u.fieldData uf = scan.u.fieldData uf) :
    (text.addFragment ch hAfter).Recorded after where
  oldUf hNone := by
    cases hFragment : text.fragment with
    | none => simp [UrlText.addFragment, hFragment] at hNone
    | some part =>
        simp [UrlText.addFragment, hFragment] at hNone
  foundAt := hFoundAt.trans hRecorded.foundAt
  fields uf hUf := by
    rw [hFields uf hUf, hRecorded.fields uf hUf]
    cases uf with
    | _ => rfl

end UrlText.Recorded

end Network

------------------------------------------------------------
-- Steps of the Scan
------------------------------------------------------------

namespace Network

variable {scan next : UrlScan}
variable {text : UrlText}
variable {ch : UInt8}

/- A query follows what has none. -/
theorem scanned_startQuery
    (hRecorded : text.Recorded scan)
    (hQuery : text.query = none)
    (hFragment : text.fragment = none) :
    Scanned (text.bytes ++ [63])
      { scan with s := .queryStringStart } := by
  rw [← text.bytes_startQuery hQuery hFragment]
  exact .parts ⟨rfl, hFragment⟩
    (hRecorded.startQuery hQuery hFragment _)

/- A hash begins the fragment. -/
theorem scanned_startFragment
    (hRecorded : text.Recorded scan)
    (hAfter : text.path ≠ [] ∨ text.query ≠ none)
    (hFragment : text.fragment = none) :
    Scanned (text.bytes ++ [35])
      { scan with s := .fragmentStart } := by
  rw [← text.bytes_addFragment hAfter (fun _ => rfl)]
  refine .parts ?_
    (hRecorded.addFragment hAfter rfl fun _ _ => rfl)
  simp [UrlText.EndsIn, UrlText.addFragment, hFragment]

/- The server part grows, or a path or a query follows it. -/
theorem scanned_server_char
    (hServer :
      scan.s = .serverStart ∨ scan.s = .server ∨
        scan.s = .serverWithAt)
    (hEnds : text.EndsIn scan.s)
    (hRecorded : text.Recorded scan)
    (hChar : scan.char text.bytes.length ch = some next) :
    Scanned (text.bytes ++ [ch]) next := by
  have hRest :
      text.path = [] ∧ text.query = none ∧
        text.fragment = none := by
    rcases hServer with hState | hState | hState
    all_goals
      rw [hState] at hEnds
      exact hEnds.2
  obtain ⟨hPath, hQuery, hFragment⟩ := hRest
  rcases parseUrlChar_server ch hServer with
    hState | ⟨rfl, hState⟩ | ⟨rfl, hState⟩ | ⟨rfl, hState⟩ |
      ⟨hSlash, hMark, hAt, hState⟩
  · exact absurd hState (UrlScan.alive_of_char hChar)
  · obtain rfl := UrlScan.eq_of_field hChar hState rfl
    rw [← text.bytes_addPath hQuery hFragment (fun _ => rfl)
      (by decide)]
    exact .parts
      ⟨by simp [UrlText.addPath], hQuery, hFragment⟩
      (hRecorded.addPath hQuery hFragment _ _)
  · obtain rfl := UrlScan.eq_of_delimiter hChar hState rfl
    exact scanned_startQuery hRecorded hQuery hFragment
  · obtain rfl := UrlScan.eq_of_field hChar hState rfl
    rw [← text.bytes_addAuthority hPath hQuery hFragment
      (by decide)]
    exact .parts
      ⟨by simp [UrlText.addAuthority], hPath, hQuery,
        hFragment⟩
      (hRecorded.addAuthority hPath hQuery hFragment _
        (by simp))
  · obtain rfl := UrlScan.eq_of_field hChar hState rfl
    rw [← text.bytes_addAuthority hPath hQuery hFragment
      ⟨hSlash, hMark⟩]
    exact .parts
      ⟨by simp [UrlText.addAuthority], hPath, hQuery,
        hFragment⟩
      (hRecorded.addAuthority hPath hQuery hFragment _
        (by simp [hAt]))

theorem scanned_path_char
    (hState : scan.s = .path)
    (hEnds : text.EndsIn scan.s)
    (hRecorded : text.Recorded scan)
    (hChar : scan.char text.bytes.length ch = some next) :
    Scanned (text.bytes ++ [ch]) next := by
  obtain ⟨hPath, hQuery, hFragment⟩ :
      text.path ≠ [] ∧ text.query = none ∧
        text.fragment = none := by
    rw [hState] at hEnds
    exact hEnds
  rcases parseUrlChar_path ch hState with
    hNext | ⟨hMark, hHash, hNext⟩ | ⟨rfl, hNext⟩ |
      ⟨rfl, hNext⟩
  · exact absurd hNext (UrlScan.alive_of_char hChar)
  · obtain rfl := UrlScan.eq_of_field hChar hNext rfl
    rw [← text.bytes_addPath hQuery hFragment
      (fun hNil => absurd hNil hPath) ⟨hMark, hHash⟩]
    exact .parts
      ⟨by simp [UrlText.addPath], hQuery, hFragment⟩
      (hRecorded.addPath hQuery hFragment _ _)
  · obtain rfl := UrlScan.eq_of_delimiter hChar hNext rfl
    exact scanned_startQuery hRecorded hQuery hFragment
  · obtain rfl := UrlScan.eq_of_delimiter hChar hNext rfl
    exact scanned_startFragment hRecorded (Or.inl hPath)
      hFragment

theorem scanned_query_char
    (hQuery :
      scan.s = .queryStringStart ∨ scan.s = .queryString)
    (hEnds : text.EndsIn scan.s)
    (hRecorded : text.Recorded scan)
    (hChar : scan.char text.bytes.length ch = some next) :
    Scanned (text.bytes ++ [ch]) next := by
  have hParts :
      text.query ≠ none ∧ text.fragment = none := by
    rcases hQuery with hState | hState
    · rw [hState] at hEnds
      exact ⟨by simp [hEnds.1], hEnds.2⟩
    · rw [hState] at hEnds
      refine ⟨fun hNone => hEnds.1 ?_, hEnds.2⟩
      simp [UrlText.queryText, hNone]
  obtain ⟨hSome, hFragment⟩ := hParts
  rcases parseUrlChar_query ch hQuery with
    hNext | ⟨hHash, hNext⟩ | ⟨rfl, hNext⟩
  · exact absurd hNext (UrlScan.alive_of_char hChar)
  · obtain rfl := UrlScan.eq_of_field hChar hNext rfl
    rw [← text.bytes_addQuery hSome hFragment hHash]
    exact .parts
      ⟨by simp [UrlText.addQuery, UrlText.queryText],
        hFragment⟩
      (hRecorded.addQuery hSome hFragment hHash)
  · obtain rfl := UrlScan.eq_of_delimiter hChar hNext rfl
    exact scanned_startFragment hRecorded (Or.inr hSome)
      hFragment

theorem scanned_fragment_char
    (hFragment :
      scan.s = .fragmentStart ∨ scan.s = .fragment)
    (hEnds : text.EndsIn scan.s)
    (hRecorded : text.Recorded scan)
    (hChar : scan.char text.bytes.length ch = some next) :
    Scanned (text.bytes ++ [ch]) next := by
  have hSome : text.fragment ≠ none := by
    rcases hFragment with hState | hState
    all_goals
      rw [hState] at hEnds
      exact hEnds
  have hAfter := text.fragment_after hSome
  have hLonger : (text.addFragment ch hAfter).fragment ≠ none := by
    obtain ⟨part, hPart⟩ := Option.ne_none_iff_exists'.mp hSome
    simp [UrlText.addFragment, hPart]
  rw [← text.bytes_addFragment hAfter
    fun hNone => absurd hNone hSome]
  rcases parseUrlChar_fragment ch hFragment with
    hNext | hNext | hNext
  · exact absurd hNext (UrlScan.alive_of_char hChar)
  · obtain rfl := UrlScan.eq_of_field hChar hNext rfl
    refine .parts hLonger (hRecorded.addFragment hAfter
      (Bool.or_false _) ?_)
    intro uf hUf
    exact UrlScan.extend_fieldData_of_ne hUf
  · obtain rfl := UrlScan.eq_of_delimiter hChar hNext rfl
    exact .parts hLonger
      (hRecorded.addFragment hAfter rfl fun _ _ => rfl)

end Network

namespace Network

variable {scan next : UrlScan}
variable {text : UrlText}
variable {ch : UInt8}

/- The scheme grows, and its marks follow it. -/
theorem scanned_scheme_char
    {mark : Bytes}
    (hOnly : text.OnlyScheme)
    (hMark : scan.s.schemeMark = some mark)
    (hRecorded : text.Recorded scan)
    (hChar :
      scan.char (text.scheme ++ mark).length ch = some next) :
    Scanned (text.scheme ++ mark ++ [ch]) next := by
  have hDelimiter :
      ∀ s, text.Recorded { scan with s := s } := fun s =>
    hRecorded.of_delimiter (fun hNone => ⟨hNone, rfl⟩) rfl rfl
  cases hState : scan.s with
  | schema =>
      rw [hState, UrlState.schemeMark,
        Option.some.injEq] at hMark
      subst hMark
      rw [List.append_nil] at hChar ⊢
      rcases parseUrlChar_schema ch hState with
        hNext | ⟨hAlpha, hNext⟩ | ⟨rfl, hNext⟩
      · exact absurd hNext (UrlScan.alive_of_char hChar)
      · obtain rfl := UrlScan.eq_of_field hChar hNext rfl
        rw [← List.append_nil (text.scheme ++ [ch])]
        exact @Scanned.scheme (text.addScheme hAlpha) [] _
          hOnly rfl (hRecorded.addScheme hOnly hAlpha)
      · obtain rfl := UrlScan.eq_of_delimiter hChar hNext rfl
        exact .scheme hOnly rfl (hDelimiter _)
  | schemaSlash =>
      rw [hState, UrlState.schemeMark,
        Option.some.injEq] at hMark
      subst hMark
      rcases parseUrlChar_slash ch (Or.inl hState) with
        hNext | ⟨rfl, hNext⟩
      · exact absurd hNext (UrlScan.alive_of_char hChar)
      · rw [if_pos hState] at hNext
        obtain rfl := UrlScan.eq_of_delimiter hChar hNext rfl
        rw [List.append_assoc]
        exact .scheme hOnly rfl (hDelimiter _)
  | schemaSlashSlash =>
      rw [hState, UrlState.schemeMark,
        Option.some.injEq] at hMark
      subst hMark
      rcases parseUrlChar_slash ch (Or.inr hState) with
        hNext | ⟨rfl, hNext⟩
      · exact absurd hNext (UrlScan.alive_of_char hChar)
      · rw [if_neg (by simp [hState])] at hNext
        obtain rfl := UrlScan.eq_of_delimiter hChar hNext rfl
        have hBytes :
            text.scheme ++ [58, 47] ++ [47] = text.bytes := by
          have hMarks : ascii "://" = [58, 47, 47] := by
            decide
          simp [UrlText.bytes, UrlText.front, hMarks,
            UrlText.marked, hOnly.1, hOnly.2.1, hOnly.2.2.1,
            hOnly.2.2.2]
        rw [hBytes]
        exact .parts hOnly (hDelimiter _)
  | _ => simp [hState, UrlState.schemeMark] at hMark

/- The states of such a URL do not lead to the scheme. -/
theorem parseUrlChar_relative
    {s : UrlState}
    (hRelative : s.isRelative = true) :
    parseUrlChar s ch = .dead ∨
      (parseUrlChar s ch).isRelative = true := by
  cases hState : s with
  | path =>
      rcases parseUrlChar_path ch rfl with
        hNext | ⟨-, -, hNext⟩ | ⟨-, hNext⟩ | ⟨-, hNext⟩
      all_goals
        rw [hNext]
        simp [UrlState.isRelative]
  | queryStringStart =>
      rcases parseUrlChar_query ch (Or.inl rfl) with
        hNext | ⟨-, hNext⟩ | ⟨-, hNext⟩
      all_goals
        rw [hNext]
        simp [UrlState.isRelative]
  | queryString =>
      rcases parseUrlChar_query ch (Or.inr rfl) with
        hNext | ⟨-, hNext⟩ | ⟨-, hNext⟩
      all_goals
        rw [hNext]
        simp [UrlState.isRelative]
  | fragmentStart =>
      rcases parseUrlChar_fragment ch (Or.inl rfl) with
        hNext | hNext | hNext
      all_goals
        rw [hNext]
        simp [UrlState.isRelative]
  | fragment =>
      rcases parseUrlChar_fragment ch (Or.inr rfl) with
        hNext | hNext | hNext
      all_goals
        rw [hNext]
        simp [UrlState.isRelative]
  | _ => simp [hState, UrlState.isRelative] at hRelative

/- A URL without a scheme never gets one. -/
theorem scanned_relative_char
    {first : UInt8}
    {rest : Bytes}
    {p : Nat}
    (hFirst : isAlpha first = false)
    (hRelative : scan.s.isRelative = true)
    (hSchema : scan.u.fieldData .schema = none)
    (hChar : scan.char p ch = some next) :
    Scanned (first :: rest) next := by
  have hState :
      (parseUrlChar scan.s ch).isRelative = true :=
    (parseUrlChar_relative hRelative).resolve_left
      (UrlScan.alive_of_char hChar)
  cases hField : (parseUrlChar scan.s ch).field with
  | none =>
      obtain rfl := UrlScan.eq_of_delimiter hChar rfl hField
      exact .relative hFirst hState hSchema
  | some uf =>
      obtain rfl := UrlScan.eq_of_field hChar rfl hField
      have hOther : uf ≠ .schema := by
        rintro rfl
        cases hNext : parseUrlChar scan.s ch with
        | schema => simp [hNext, UrlState.isRelative] at hState
        | _ => simp [hNext, UrlState.field] at hField
      exact .relative hFirst hState
        ((UrlScan.extend_fieldData_of_ne hOther.symm).trans
          hSchema)

/- A URL begins with a scheme, or it has none. -/
theorem scanned_first_char
    (hChar :
      ({ s := .spacesBeforeUrl } : UrlScan).char 0 ch =
        some next) :
    Scanned [ch] next := by
  rcases parseUrlChar_first ch with
    hNext | ⟨hOther, hNext⟩ | ⟨hAlpha, hNext⟩
  · exact absurd hNext (UrlScan.alive_of_char hChar)
  · obtain rfl := UrlScan.eq_of_field hChar hNext rfl
    exact .relative hOther rfl rfl
  · obtain rfl := UrlScan.eq_of_field hChar hNext rfl
    let first : UrlText :=
      { scheme := [ch]
        scheme_chars := by simpa using hAlpha
        scheme_nonempty := by simp
        authority_chars := by simp
        path_head := by simp
        path_chars := by simp
        query_chars := by simp
        fragment_after := by simp }
    refine @Scanned.scheme first [] _
      ⟨rfl, rfl, rfl, rfl⟩ rfl
      { oldUf := fun _ => rfl
        foundAt := rfl
        fields := fun uf hUf => ?_ }
    cases uf with
    | _ => rfl

end Network

------------------------------------------------------------
-- The Whole Scan
------------------------------------------------------------

namespace Network

variable {scan : UrlScan}

theorem scanned_char
    {bytes : Bytes}
    {ch : UInt8}
    {next : UrlScan}
    (hScanned : Scanned bytes scan)
    (hChar : scan.char bytes.length ch = some next) :
    Scanned (bytes ++ [ch]) next := by
  cases hScanned with
  | start => exact scanned_first_char hChar
  | relative hFirst hRelative hSchema =>
      exact scanned_relative_char hFirst hRelative hSchema
        hChar
  | scheme hOnly hMark hRecorded =>
      exact scanned_scheme_char hOnly hMark hRecorded hChar
  | @parts text scan hEnds hRecorded =>
      cases hState : scan.s with
      | serverStart =>
          exact scanned_server_char (Or.inl hState) hEnds
            hRecorded hChar
      | server =>
          exact scanned_server_char (Or.inr (Or.inl hState))
            hEnds hRecorded hChar
      | serverWithAt =>
          exact scanned_server_char (Or.inr (Or.inr hState))
            hEnds hRecorded hChar
      | path =>
          exact scanned_path_char hState hEnds hRecorded hChar
      | queryStringStart =>
          exact scanned_query_char (Or.inl hState) hEnds
            hRecorded hChar
      | queryString =>
          exact scanned_query_char (Or.inr hState) hEnds
            hRecorded hChar
      | fragmentStart =>
          exact scanned_fragment_char (Or.inl hState) hEnds
            hRecorded hChar
      | fragment =>
          exact scanned_fragment_char (Or.inr hState) hEnds
            hRecorded hChar
      | _ => simp [UrlText.EndsIn, hState] at hEnds

theorem scanned_loop
    {bytes rest : Bytes}
    {last : UrlScan}
    (hScanned : Scanned bytes scan)
    (hLoop : scan.loop bytes.length rest = some last) :
    Scanned (bytes ++ rest) last := by
  induction rest generalizing bytes scan with
  | nil =>
      rw [UrlScan.loop, Option.some.injEq] at hLoop
      rw [List.append_nil]
      exact hLoop ▸ hScanned
  | cons ch rest ih =>
      rw [UrlScan.loop, Option.bind_eq_some_iff] at hLoop
      obtain ⟨next, hChar, hRest⟩ := hLoop
      have hNext := scanned_char hScanned hChar
      have hLength :
          bytes.length + 1 = (bytes ++ [ch]).length := by
        simp
      rw [hLength] at hRest
      rw [List.append_cons]
      exact ih hNext hRest

/- A URL that begins with a letter has a scheme. -/
theorem isSet_schema_of_loop
    {first : UInt8}
    {rest : Bytes}
    (hLoop :
      ({ s := .spacesBeforeUrl } : UrlScan).loop 0
          (first :: rest) =
        some scan)
    (hFirst : isAlpha first = true) :
    scan.u.isSet .schema = true := by
  have hScheme :
      ∀ {text : UrlText}, text.Recorded scan →
        scan.u.isSet .schema = true := by
    intro text hRecorded
    rw [HttpParserUrl.isSet,
      hRecorded.fields .schema (by simp)]
    simp [UrlText.fields, fieldAt, text.scheme_nonempty]
  have hScanned : Scanned ([] ++ first :: rest) scan :=
    scanned_loop .start hLoop
  rw [List.nil_append] at hScanned
  generalize hBytes : first :: rest = bytes at hScanned
  cases hScanned with
  | start => simp at hBytes
  | relative hOther hRelative hNone =>
      obtain ⟨rfl, -⟩ := List.cons.inj hBytes
      rw [hFirst] at hOther
      exact Bool.noConfusion hOther
  | scheme hOnly hMark hRecorded => exact hScheme hRecorded
  | parts hEnds hRecorded => exact hScheme hRecorded

/- Line breaks end a scan. -/
theorem ne_lineBreak_of_loop
    {p : Nat}
    {url : Bytes}
    {last : UrlScan}
    (hLoop : scan.loop p url = some last) :
    ∀ c ∈ url, c ≠ 10 ∧ c ≠ 13 := by
  induction url generalizing scan p with
  | nil => simp
  | cons ch url ih =>
      rw [UrlScan.loop, Option.bind_eq_some_iff] at hLoop
      obtain ⟨next, hChar, hRest⟩ := hLoop
      rw [List.forall_mem_cons]
      refine ⟨⟨?_, ?_⟩, ih hRest⟩
      · rintro rfl
        exact UrlScan.alive_of_char hChar
          (by simp [parseUrlChar])
      · rintro rfl
        exact UrlScan.alive_of_char hChar
          (by simp [parseUrlChar])

/- A scan that has set a host is the scan of a whole text. -/
theorem urlText_of_loop
    {url : Bytes}
    (hLoop :
      ({ s := .spacesBeforeUrl } : UrlScan).loop 0 url =
        some scan)
    (hSchema : scan.u.isSet .schema = true)
    (hHost : scan.u.isSet .host = true) :
    ∃ text : UrlText,
      url = text.bytes ∧ text.authority ≠ [] ∧
        text.Recorded scan := by
  have hScanned : Scanned ([] ++ url) scan :=
    scanned_loop .start hLoop
  rw [List.nil_append] at hScanned
  cases hScanned with
  | start => simp [HttpParserUrl.isSet] at hSchema
  | relative hFirst hRelative hNone =>
      simp [HttpParserUrl.isSet, hNone] at hSchema
  | @scheme text mark scan hOnly hMark hRecorded =>
      rw [HttpParserUrl.isSet,
        hRecorded.fields .host (by simp)] at hHost
      simp [UrlText.fields, hOnly.1, fieldAt_nil] at hHost
  | @parts text scan hEnds hRecorded =>
      refine ⟨text, rfl, ?_, hRecorded⟩
      intro hNil
      rw [HttpParserUrl.isSet,
        hRecorded.fields .host (by simp)] at hHost
      simp [UrlText.fields, hNil, fieldAt_nil] at hHost

end Network
