import XMLHttpRequest.Url.AuthorityText
import XMLHttpRequest.Url.Fragment
import XMLHttpRequest.Session.Operations

/-
  The URLs that `submit` takes.

  A text is taken exactly when it is spelled as a scheme, an
  authority, a path, a query and a fragment, each of its own
  characters, with a port of at most 16 bits.  The fields that
  the parser returns are the parts of the text.

  Key definitions include:
    * `Network.AbsoluteUrl`
    * `Network.AbsoluteUrl.part`

  Key theorems include:
    * `Network.parse_of_authority`
    * `Network.AbsoluteUrl.submittable_parts`
    * `Network.submittable_iff_absolute`
-/

------------------------------------------------------------
-- Parsing a Text with an Authority
------------------------------------------------------------

namespace Network

variable {text : UrlText}
variable {server : Authority}

/- The fields of a text whose authority has been split. -/
def splitFields
    (text : UrlText)
    (server : Authority)
    (uf : UrlField) : Option FieldData :=
  if uf = .fragment then
    fieldAt text.fragmentStart text.shownFragment
  else if uf.ofHost then server.fields text.hostStart uf
  else text.fields uf

/- Where 16 bits reach the authority, it is read as it is. -/
theorem hostField_of_holds
    {scanned : UrlScan}
    (hHolds : text.Holds scanned)
    (hNonempty : text.authority ≠ [])
    (hReach : text.pathStart < 2 ^ 16) :
    scanned.u.fieldData .host =
        some ⟨text.hostStart, text.authority.length⟩ ∧
      (text.bytes.drop text.hostStart).take
          text.authority.length = text.authority := by
  have hPlace : text.hostStart < 2 ^ 16 := by
    unfold UrlText.pathStart at hReach
    omega
  have hLength : text.authority.length < 2 ^ 16 := by
    unfold UrlText.pathStart at hReach
    omega
  constructor
  · rw [hHolds.fields .host (by simp), UrlText.fields,
      fieldAt, if_neg hNonempty, toUint16, toUint16,
      Nat.mod_eq_of_lt hPlace, Nat.mod_eq_of_lt hLength]
  · exact text.standsAt_authority.take

/- The host of a spelled authority is accepted. -/
theorem httpParseHost_of_authority
    {scanned : UrlScan}
    (hServer : text.authority = server.bytes)
    (hHolds : text.Holds scanned)
    (hFragment :
      scanned.u.fieldData .fragment =
        fieldAt text.fragmentStart text.shownFragment)
    (hReach : text.pathStart < 2 ^ 16) :
    ∃ parsed,
      httpParseHost text.bytes scanned.u scanned.foundAt =
          some parsed ∧
        parsed.fieldData = splitFields text server := by
  have hNonempty : text.authority ≠ [] := by
    rw [hServer]
    exact server.bytes_nonempty
  rcases hostField_of_holds hHolds hNonempty hReach with
    ⟨hField, hText⟩
  have hStart :
      (if scanned.foundAt then HostState.userinfoStart
        else .hostStart) = server.startState := by
    rw [hHolds.foundAt, hServer]
    simp only [server.mem_at_iff, Authority.startState,
      Bool.decide_eq_true]
  have hAwaits :
      HostScan.AwaitsHost
        (scanned.u.setField .host ⟨text.hostStart, 0⟩) :=
    ⟨text.hostStart, by simp [HttpParserUrl.setField]⟩
  have hUserinfo :
      (scanned.u.setField .host
        ⟨text.hostStart, 0⟩).fieldData .userinfo = none :=
    hHolds.fields .userinfo (by simp)
  have hPort :
      (scanned.u.setField .host
        ⟨text.hostStart, 0⟩).fieldData .port = none :=
    hHolds.fields .port (by simp)
  rcases server.loop_bytes text.hostStart hAwaits
      hUserinfo hPort with ⟨last, hLoop, hAccepting, hFields⟩
  have hParse :
      httpParseHost text.bytes scanned.u scanned.foundAt =
        some last.u := by
    rw [httpParseHost, hField]
    simp only
    rw [hText, hStart, hServer, hLoop, Option.bind_some,
      if_pos hAccepting]
  refine ⟨last.u, hParse, ?_⟩
  funext uf
  unfold splitFields
  split
  · rename_i hIs
    rw [hIs, httpParseHost_fieldData hParse rfl]
    exact hFragment
  · rename_i hNot
    split
    · rename_i hOf
      exact hFields uf hOf
    · rename_i hOther
      rw [httpParseHost_fieldData hParse
        (by simpa using hOther)]
      exact hHolds.fields uf hNot

/- What stands at the port, up to the end of the text. -/
theorem drop_portStart
    (hServer : text.authority = server.bytes)
    {digits : Bytes}
    (hPort : server.port = some digits) :
    text.bytes.drop (text.hostStart + server.portOffset) =
      digits ++ text.target := by
  have hMarks : (ascii "://").length = 3 := by decide
  have hFront :
      text.bytes =
        (text.scheme ++ ascii "://" ++
            server.userinfoText ++ server.host.bytes ++
              [58]) ++ (digits ++ text.target) := by
    rw [UrlText.bytes_eq, hServer, Authority.bytes, hPort,
      UrlText.marked]
    simp only [List.append_assoc, List.cons_append,
      List.nil_append]
  rw [hFront, List.drop_left']
  simp only [List.length_append, hMarks, UrlText.hostStart,
    Authority.portOffset, List.length_singleton]
  omega

/- A port stands within the authority. -/
theorem portStart_lt
    (hServer : text.authority = server.bytes)
    (hReach : text.pathStart < 2 ^ 16)
    {digits : Bytes}
    (hPort : server.port = some digits) :
    text.hostStart + server.portOffset < 2 ^ 16 := by
  have hNonempty := (server.port_digits digits hPort).nonempty
  have hDigits := List.length_pos_iff.mpr hNonempty
  unfold UrlText.pathStart at hReach
  rw [hServer, Authority.bytes, hPort, UrlText.marked] at hReach
  simp only [List.length_append, List.length_cons] at hReach
  unfold Authority.portOffset
  omega

/- The parser on a text whose parts are well spelled. -/
theorem parse_of_authority
    (hServer : text.authority = server.bytes)
    (hSpelled : text.Spelled)
    (hReach : text.pathStart < 2 ^ 16) :
    ∃ parsed : HttpParserUrl,
      parsed.fieldData = splitFields text server ∧
        httpParserParseUrl text.bytes =
          match server.port with
          | none => some parsed
          | some digits =>
              if decimalValue digits ≤ 0xffff then
                some { parsed with port := decimalValue digits }
              else none := by
  have hNonempty : text.authority ≠ [] := by
    rw [hServer]
    exact server.bytes_nonempty
  have hAlive :
      Scanner.scan parseUrlChar .spacesBeforeUrl text.bytes ≠
        .dead := by
    refine text.alive_iff_spelled.mpr ⟨?_, hSpelled⟩
    rw [hServer]
    exact server.alive_bytes
  rcases Option.isSome_iff_exists.mp
      ((UrlScan.loop_isSome_iff text.bytes).mpr hAlive) with
    ⟨scanned, hLoop⟩
  have hHolds := UrlText.holds_of_loop hNonempty hLoop
  have hHash : ∀ c ∈ text.authority, c ≠ 35 := by
    rw [hServer]
    exact fun c hMem => (server.bytes_chars c hMem).2.2
  have hFragment := text.fragment_of_loop hHash hLoop
  rcases httpParseHost_of_authority hServer hHolds hFragment
      hReach with ⟨parsed, hHost, hFields⟩
  have hSet : scanned.u.isSet .host = true := by
    rw [HttpParserUrl.isSet,
      (hostField_of_holds hHolds hNonempty hReach).1]
    rfl
  refine ⟨parsed, hFields, ?_⟩
  have hPortField :
      parsed.fieldData .port =
        fieldAt (text.hostStart + server.portOffset)
          (server.port.getD []) := by
    rw [hFields]
    rfl
  rw [httpParserParseUrl, hLoop, Option.bind_some, hSet]
  simp only [Bool.not_true, Bool.and_false,
    Bool.false_eq_true, if_false]
  rw [hHost, Option.bind_some]
  cases hPort : server.port with
  | none =>
      rw [hPort] at hPortField
      have hNone : parsed.fieldData .port = none := hPortField
      rw [hNone]
  | some digits =>
      have hDigits := server.port_digits digits hPort
      have hPlace := portStart_lt hServer hReach hPort
      have hTarget :
          ∀ c ∈ text.target.head?, isDigit c = false := by
        intro c hHead
        rcases text.target_head hHead with rfl | rfl <;> decide
      have hBound := strtoul_digits_le_iff hDigits hTarget
      rw [hPort, Option.getD_some, fieldAt,
        if_neg hDigits.nonempty, toUint16,
        Nat.mod_eq_of_lt hPlace] at hPortField
      rw [hPortField]
      simp only [drop_portStart hServer hPort]
      by_cases hFits : decimalValue digits ≤ 0xffff
      · have hValue := strtoul_digits hDigits hTarget
        rw [if_pos (by omega)] at hValue
        rw [if_pos hFits, if_neg (by omega), hValue]
        rfl
      · rw [if_neg hFits, if_pos (by omega)]

end Network

------------------------------------------------------------
-- Absolute URLs
------------------------------------------------------------

namespace Network

/- A URL out of parts that are spelled as they should be. -/
structure AbsoluteUrl extends UrlText where
  server : Authority
  server_bytes : authority = server.bytes
  spelled : toUrlText.Spelled
  port_bound :
    ∀ digits ∈ server.port, decimalValue digits ≤ 0xffff

namespace AbsoluteUrl

variable (url : AbsoluteUrl)

/-
  The text of a part, empty where there is none.  A fragment
  is shown without the hashes that it begins with.
-/
def part : UrlField → Bytes
  | .schema => url.scheme
  | .host => url.server.host.text
  | .port => url.server.port.getD []
  | .path => url.path
  | .query => url.queryText
  | .fragment => url.shownFragment
  | .userinfo => url.server.userinfo.getD []

/- Where a part begins. -/
def place : UrlField → Nat
  | .schema => 0
  | .host => url.hostStart + url.server.hostOffset
  | .port => url.hostStart + url.server.portOffset
  | .path => url.pathStart
  | .query => url.queryStart
  | .fragment => url.fragmentStart
  | .userinfo => url.hostStart

theorem splitFields_eq (uf : UrlField) :
    splitFields url.toUrlText url.server uf =
      fieldAt (url.place uf) (url.part uf) := by
  cases uf <;> rfl

/- The server part stands where the scan has found it. -/
theorem standsAt_server :
    StandsAt url.bytes url.hostStart
      (url.server.userinfoText ++
        (url.server.host.opening ++
          (url.server.host.text ++
            (url.server.host.closing ++
              UrlText.marked 58 url.server.port)))) := by
  have hAuthority := url.standsAt_authority
  rw [url.server_bytes, Authority.bytes,
    HostSpelling.bytes] at hAuthority
  simpa only [List.append_assoc] using hAuthority

theorem standsAt_part
    {uf : UrlField}
    (hPart : url.part uf ≠ []) :
    StandsAt url.bytes (url.place uf) (url.part uf) := by
  have hServer := url.standsAt_server.split
  have hHost := hServer.2.split.2.split
  cases uf with
  | schema => exact url.standsAt_scheme
  | path => exact url.standsAt_path
  | query => exact url.standsAt_query hPart
  | fragment => exact url.standsAt_shownFragment hPart
  | host =>
      have hFound := hHost.1
      rw [Nat.add_assoc] at hFound
      exact hFound
  | userinfo =>
      have hFound := hServer.1
      unfold Authority.userinfoText at hFound
      unfold part at hPart ⊢
      cases hText : url.server.userinfo with
      | none =>
          rw [hText] at hPart
          exact absurd rfl hPart
      | some text =>
          rw [hText] at hFound
          exact hFound.split.1
  | port =>
      have hFound := hHost.2.split.2
      unfold part at hPart ⊢
      cases hText : url.server.port with
      | none =>
          rw [hText] at hPart
          exact absurd rfl hPart
      | some digits =>
          have hMark :
              UrlText.marked 58 (some digits) =
                [58] ++ digits := rfl
          have hPlace :
              url.place .port =
                url.hostStart +
                  url.server.userinfoText.length +
                    url.server.host.opening.length +
                      url.server.host.text.length +
                        url.server.host.closing.length +
                          ([58] : Bytes).length := by
            simp only [place, Authority.portOffset,
              HostSpelling.bytes, List.length_append,
              List.length_singleton]
            omega
          rw [hText, hMark] at hFound
          rw [hPlace]
          exact hFound.split.2

/- The fields of a parsed URL are read back as its parts. -/
theorem component_eq_part
    (hLength : url.bytes.length < 2 ^ 16)
    {u : HttpParserUrl}
    {uf : UrlField}
    (hField :
      u.fieldData uf =
        fieldAt (url.place uf) (url.part uf)) :
    u.component url.bytes uf = url.part uf := by
  by_cases hPart : url.part uf = []
  · rw [HttpParserUrl.component, hField, hPart, fieldAt_nil]
  · have hStands := url.standsAt_part hPart
    have hFits := hStands.fits
    refine (component_eq_iff hField hStands).mpr ⟨?_, .inl ?_⟩
    · omega
    · have hPositive := List.length_pos_iff.mpr hPart
      omega

theorem isSet_iff_part
    {u : HttpParserUrl}
    {uf : UrlField}
    (hField :
      u.fieldData uf =
        fieldAt (url.place uf) (url.part uf)) :
    u.isSet uf = true ↔ url.part uf ≠ [] := by
  rw [HttpParserUrl.isSet, hField, fieldAt]
  split <;> simp_all

theorem pathStart_le_length :
    url.pathStart ≤ url.bytes.length := by
  have hFits := url.standsAt_authority.fits
  exact hFits

/- What the parser makes of an absolute URL. -/
theorem parse_bytes
    (hReach : url.pathStart < 2 ^ 16) :
    ∃ u : HttpParserUrl,
      submittableUrl url.bytes = some u ∧
        (∀ digits ∈ url.server.port,
          u.port = decimalValue digits) ∧
          ∀ uf,
            u.fieldData uf =
              fieldAt (url.place uf) (url.part uf) := by
  have hText :
      url.server.host.text ≠ [] := by
    cases url.server.host with
    | name text hNonempty => exact hNonempty
    | address text zone hNonempty =>
        simp [HostSpelling.text, hNonempty]
  rcases parse_of_authority url.server_bytes url.spelled
      hReach with ⟨parsed, hFields, hParse⟩
  have hSplit (uf : UrlField) :
      parsed.fieldData uf =
        fieldAt (url.place uf) (url.part uf) := by
    rw [hFields]
    exact url.splitFields_eq uf
  have hSchema :=
    (url.isSet_iff_part (hSplit .schema)).mpr
      url.scheme_nonempty
  have hHost :=
    (url.isSet_iff_part (hSplit .host)).mpr hText
  have hBound := url.port_bound
  have hSubmittable
      {u : HttpParserUrl}
      (hSome : httpParserParseUrl url.bytes = some u)
      (hSame : u.fieldData = parsed.fieldData) :
      submittableUrl url.bytes = some u := by
    rw [submittableUrl, hSome, Option.filter_some, if_pos]
    unfold HttpParserUrl.isSet at hSchema hHost ⊢
    rw [hSame, hSchema, hHost]
    rfl
  cases hPort : url.server.port with
  | none =>
      rw [hPort] at hParse
      exact ⟨parsed, hSubmittable hParse rfl, by simp, hSplit⟩
  | some digits =>
      rw [hPort] at hParse hBound
      simp only [if_pos (hBound digits rfl)] at hParse
      refine ⟨_, hSubmittable hParse rfl, ?_, hSplit⟩
      intro other hOther
      rw [← Option.some.inj hOther]

end AbsoluteUrl

end Network

------------------------------------------------------------
-- Taking and Giving Back
------------------------------------------------------------

namespace Network

/-
  An absolute URL within 16 bits is taken, and each of its
  parts is given back from its field.
-/
theorem AbsoluteUrl.submittable_parts
    (url : AbsoluteUrl)
    (hLength : url.bytes.length < 2 ^ 16) :
    ∃ u : HttpParserUrl,
      submittableUrl url.bytes = some u ∧
        (∀ digits ∈ url.server.port,
          u.port = decimalValue digits) ∧
          ∀ uf,
            (u.isSet uf = true ↔ url.part uf ≠ []) ∧
              u.component url.bytes uf = url.part uf := by
  have hReach : url.pathStart < 2 ^ 16 :=
    url.pathStart_le_length.trans_lt hLength
  rcases url.parse_bytes hReach with
    ⟨u, hTaken, hPort, hFields⟩
  refine ⟨u, hTaken, hPort, ?_⟩
  intro uf
  have hField := hFields uf
  exact ⟨url.isSet_iff_part hField,
    url.component_eq_part hLength hField⟩

/- A property of all bytes of a text that is written down. -/
theorem forall_mem_of_all
    {p : UInt8 → Prop}
    [DecidablePred p]
    {text : Bytes}
    (hAll : text.all (fun c => decide (p c)) = true) :
    ∀ c ∈ text, p c := by
  simpa using hAll

/- The address of a local host with a zone. -/
def zonedAuthority : Authority where
  userinfo := some (ascii "me")
  host :=
    .address (ascii "::1") (some (ascii "e0")) (by decide)
      (forall_mem_of_all (by decide)) (by decide) (by
        rintro zone ⟨⟩
        exact forall_mem_of_all (by decide))
  port := some (ascii "8080")
  userinfo_chars := by
    rintro text ⟨⟩
    exact forall_mem_of_all (by decide)
  port_digits := by
    rintro text ⟨⟩
    exact ⟨by decide, forall_mem_of_all (by decide)⟩

def zonedUrl : AbsoluteUrl where
  scheme := ascii "wss"
  authority := zonedAuthority.bytes
  path := ascii "/a"
  query := some (ascii "b?c")
  fragment := some (ascii "#d#")
  scheme_chars := forall_mem_of_all (by decide)
  scheme_nonempty := by decide
  authority_chars c hMem :=
    have hChars := zonedAuthority.bytes_chars c hMem
    ⟨hChars.1, hChars.2.1⟩
  path_head := by
    rintro c ⟨⟩
    rfl
  path_chars := forall_mem_of_all (by decide)
  query_chars := by
    rintro text ⟨⟩
    exact forall_mem_of_all (by decide)
  fragment_after _ := .inl (by decide)
  server := zonedAuthority
  server_bytes := rfl
  spelled :=
    { path := forall_mem_of_all (by decide)
      query := by
        rintro text ⟨⟩
        exact forall_mem_of_all (by decide)
      fragment := by
        rintro text ⟨⟩
        exact forall_mem_of_all (by decide) }
  port_bound := by
    rintro text ⟨⟩
    decide

theorem AbsoluteUrl.submittable_parts_zoned :
    ∃ u : HttpParserUrl,
      submittableUrl
          (ascii "wss://me@[::1%e0]:8080/a?b?c##d#") =
            some u ∧
        (∀ digits ∈ zonedUrl.server.port,
          u.port = decimalValue digits) ∧
          ∀ uf,
            (u.isSet uf = true ↔ zonedUrl.part uf ≠ []) ∧
              u.component zonedUrl.bytes uf =
                zonedUrl.part uf := by
  have hText :
      ascii "wss://me@[::1%e0]:8080/a?b?c##d#" =
        zonedUrl.bytes := by
    decide
  rw [hText]
  exact AbsoluteUrl.submittable_parts zonedUrl (by decide)

/- A server part that is accepted can be spelled. -/
theorem exists_authority_of_parse
    {text : UrlText}
    {scanned : UrlScan}
    {parsed : HttpParserUrl}
    (hHolds : text.Holds scanned)
    (hNonempty : text.authority ≠ [])
    (hReach : text.pathStart < 2 ^ 16)
    (hHost :
      httpParseHost text.bytes scanned.u scanned.foundAt =
        some parsed) :
    ∃ server : Authority, text.authority = server.bytes := by
  rcases hostField_of_holds hHolds hNonempty hReach with
    ⟨hField, hText⟩
  rw [httpParseHost, hField] at hHost
  simp only [hText] at hHost
  rw [Option.bind_eq_some_iff] at hHost
  rcases hHost with ⟨last, hLoop, hEnd⟩
  rw [HostScan.loop_eq_readAt] at hLoop
  have hState := HostScan.tracks.state_of_readAt hLoop
  split at hEnd
  · rename_i hAccepting
    rw [hState] at hAccepting
    exact exists_authority_of_accepted hHolds.foundAt
      hAccepting
  · cases hEnd

/-
  Where 16 bits reach its server part, a text is taken if and
  only if it is an absolute URL.
-/
theorem submittable_iff_absolute
    (url : Bytes)
    (hReach : pathOffset url < 2 ^ 16) :
    (submittableUrl url).isSome = true ↔
      ∃ absolute : AbsoluteUrl, url = absolute.bytes := by
  constructor
  · intro hTaken
    rcases Option.isSome_iff_exists.mp hTaken with ⟨u, hSome⟩
    rw [submittableUrl, Option.filter_eq_some_iff,
      Bool.and_eq_true] at hSome
    rcases hSome with ⟨hParse, hSchema, _⟩
    rcases urlText_of_parse hParse hSchema with
      ⟨_, text, rfl, hNonempty, _, _, _⟩
    rcases httpParserParseUrl_cases hParse with
      ⟨scanned, parsed, hLoop, _, hHost, _⟩
    rw [text.pathOffset_bytes] at hReach
    have hAlive :=
      (UrlScan.loop_isSome_iff text.bytes).mp
        (Option.isSome_iff_exists.mpr ⟨scanned, hLoop⟩)
    have hSpelled := (text.alive_iff_spelled.mp hAlive).2
    have hHolds := UrlText.holds_of_loop hNonempty hLoop
    rcases exists_authority_of_parse hHolds hNonempty hReach
        hHost with ⟨server, hServer⟩
    rcases parse_of_authority hServer hSpelled hReach with
      ⟨_, _, hResult⟩
    rw [hParse] at hResult
    refine ⟨
      { text with
        server := server
        server_bytes := hServer
        spelled := hSpelled
        port_bound := ?_ }, rfl⟩
    intro digits hDigits
    by_contra hLarge
    rw [Option.mem_def.mp hDigits] at hResult
    simp only [if_neg hLarge] at hResult
    cases hResult
  · rintro ⟨absolute, rfl⟩
    rw [absolute.pathOffset_bytes] at hReach
    rcases absolute.parse_bytes hReach with ⟨u, hTaken, _⟩
    exact Option.isSome_iff_exists.mpr ⟨u, hTaken⟩

theorem submittable_iff_absolute_large :
    ¬ ∃ absolute : AbsoluteUrl,
      ascii "http://h:65536/" = absolute.bytes := by
  rw [← submittable_iff_absolute _ (by decide)]
  decide

end Network
