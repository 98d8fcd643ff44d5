import XMLHttpRequest.Session.Operations
import XMLHttpRequest.Url.UrlParts

/-
  The `:path` of a request and the URL it comes from.

  The parser counts in 16 bits.  A part that is longer comes
  out shorter, and a part that begins later is read from an
  earlier place, where the same text may stand only by
  chance.

  Key definitions include:
    * `Network.sentPath`

  Key theorems include:
    * `Network.submittedPath_eq_iff`
    * `Network.sentPath_eq_iff`
    * `Network.submittedPath_longUrl`
-/

------------------------------------------------------------
-- The Submitted Path
------------------------------------------------------------

namespace Network

/- A submitted URL has the fields of its path and query. -/
theorem urlText_of_submittable
    {url : Bytes}
    {u : HttpParserUrl}
    (hUrl : submittableUrl url = some u) :
    ∃ text : UrlText,
      url = text.bytes ∧
        u.fieldData .path =
            fieldAt text.pathStart text.path ∧
          u.fieldData .query =
            fieldAt text.queryStart text.queryText := by
  rw [submittableUrl, Option.filter_eq_some_iff] at hUrl
  obtain ⟨hParse, hSet⟩ := hUrl
  rw [Bool.and_eq_true] at hSet
  obtain ⟨-, text, hText, -, -, -, hFields⟩ :=
    urlText_of_parse hParse hSet.1
  exact ⟨text, hText, hFields .path (by simp) rfl,
    hFields .query (by simp) rfl⟩

/- The path of a request, where it is not empty. -/
def slashed (path : Bytes) : Bytes :=
  if path = [] then ascii "/" else path

theorem slashed_length (path : Bytes) :
    (slashed path).length = max 1 path.length := by
  by_cases hPath : path = []
  · subst hPath
    decide
  · have hPositive := List.length_pos_iff.mpr hPath
    rw [slashed, if_neg hPath]
    omega

/- A slash in its place does not make up for a lost path. -/
theorem slashed_eq_iff
    {sent path : Bytes}
    (hLength : sent.length = path.length % 2 ^ 16) :
    slashed sent = slashed path ↔ sent = path := by
  constructor
  · intro hSame
    have hLengths := congrArg List.length hSame
    rw [slashed_length, slashed_length] at hLengths
    by_cases hPath : path = []
    · subst hPath
      exact List.eq_nil_of_length_eq_zero hLength
    · have hPositive := List.length_pos_iff.mpr hPath
      have hSent : sent ≠ [] :=
        List.ne_nil_of_length_pos (by omega)
      rwa [slashed, slashed, if_neg hPath,
        if_neg hSent] at hSame
  · intro hSame
    rw [hSame]

/- Neither part can be longer to make up for the other. -/
theorem slashed_append_eq_iff
    {sent path sentQuery query : Bytes}
    (hPath : sent.length = path.length % 2 ^ 16)
    (hQuery : sentQuery.length = query.length % 2 ^ 16) :
    slashed sent ++ ascii "?" ++ sentQuery =
        slashed path ++ ascii "?" ++ query ↔
      sent = path ∧ sentQuery = query := by
  constructor
  · intro hSame
    have hLengths := congrArg List.length hSame
    simp only [List.length_append, slashed_length]
      at hLengths
    have hFirst :
        (slashed sent ++ ascii "?").length =
          (slashed path ++ ascii "?").length := by
      simp only [List.length_append, slashed_length]
      omega
    obtain ⟨hFront, hBack⟩ := List.append_inj hSame hFirst
    exact ⟨(slashed_eq_iff hPath).mp
      (List.append_cancel_right hFront), hBack⟩
  · rintro ⟨rfl, rfl⟩
    rfl

/-
  The path of a request is that of its URL exactly when the
  path and the query are in reach of 16 bits.
-/
theorem submittedPath_eq_iff
    {url : Bytes}
    {u : HttpParserUrl}
    (hUrl : submittableUrl url = some u) :
    submittedPath url u = requestTarget url ↔
      InReach url (pathOffset url) (pathOf url) ∧
        InReach url (queryOffset url) (queryOf url) := by
  obtain ⟨text, rfl, hPath, hQuery⟩ :=
    urlText_of_submittable hUrl
  have hPathIff := component_eq_iff hPath text.standsAt_path
  have hPathLength :=
    component_length hPath text.standsAt_path
  rw [text.pathOffset_bytes, text.queryOffset_bytes,
    text.pathOf_bytes, text.queryOf_bytes, ← hPathIff,
    submittedPath, requestTarget, text.pathOf_bytes,
    text.queryOf_bytes]
  by_cases hNone : text.queryText = []
  · -- no query is sent, and none is due
    have hUnset : u.isSet .query = false := by
      simp [HttpParserUrl.isSet, hQuery, hNone, fieldAt_nil]
    have hReach : InReach text.bytes text.queryStart [] :=
      ⟨by decide, Or.inr List.nil_prefix⟩
    rw [hUnset, hNone, if_neg (by simp), if_pos rfl,
      List.append_nil, and_iff_left hReach]
    exact slashed_eq_iff hPathLength
  · have hSet : u.isSet .query = true := by
      simp [HttpParserUrl.isSet, hQuery, hNone, fieldAt]
    have hStands := text.standsAt_query hNone
    rw [hSet, if_pos rfl, if_neg hNone,
      ← component_eq_iff hQuery hStands,
      ← List.append_assoc]
    exact slashed_append_eq_iff hPathLength
      (component_length hQuery hStands)

/- The first `:path` of the fields given to nghttp2. -/
def sentPath (nva : List NameValue) : Option Bytes :=
  (nva.find? fun field => field.name = ascii ":path").map
    (·.value)

theorem sentPath_submittedNva
    (arguments : SubmitArguments)
    (u : HttpParserUrl)
    (stale : Bytes) :
    sentPath (submittedNva arguments u stale) =
      some (submittedPath arguments.url u) := by
  have hMethod : ascii ":method" ≠ ascii ":path" := by decide
  have hScheme : ascii ":scheme" ≠ ascii ":path" := by decide
  simp [sentPath, submittedNva, hMethod, hScheme]

/-
  The `:path` that is sent is the one in the URL exactly when
  the path and the query are in reach of 16 bits.
-/
theorem sentPath_eq_iff
    {arguments : SubmitArguments}
    {u : HttpParserUrl}
    (hUrl : submittableUrl arguments.url = some u)
    (stale : Bytes) :
    sentPath (submittedNva arguments u stale) =
        some (requestTarget arguments.url) ↔
      InReach arguments.url (pathOffset arguments.url)
          (pathOf arguments.url) ∧
        InReach arguments.url (queryOffset arguments.url)
          (queryOf arguments.url) := by
  rw [sentPath_submittedNva, Option.some.injEq]
  exact submittedPath_eq_iff hUrl

end Network

namespace Network

def queryArguments : SubmitArguments :=
  { url := ascii "http://a.b/c?d", method := ascii "GET" }

theorem sentPath_eq_iff_query :
    sentPath
        (submittedNva queryArguments
          ((submittableUrl queryArguments.url).get
            (by decide +kernel)) []) =
        some (requestTarget queryArguments.url) ↔
      InReach queryArguments.url
          (pathOffset queryArguments.url)
          (pathOf queryArguments.url) ∧
        InReach queryArguments.url
          (queryOffset queryArguments.url)
          (queryOf queryArguments.url) :=
  sentPath_eq_iff (Option.some_get _).symm []

end Network

------------------------------------------------------------
-- A Path That Is Too Long
------------------------------------------------------------

namespace Network

/- A path goes on through its own characters. -/
theorem UrlScan.loop_path
    {scan : UrlScan}
    {p : Nat}
    {bytes : Bytes}
    (hState : scan.s = .path)
    (hBytes : ∀ c ∈ bytes, parseUrlChar .path c = .path) :
    ∃ last,
      scan.loop p bytes = some last ∧
        last.foundAt = scan.foundAt ∧
          ∀ uf, uf ≠ .path →
            last.u.fieldData uf = scan.u.fieldData uf := by
  induction bytes generalizing scan p with
  | nil => exact ⟨scan, rfl, rfl, fun _ _ => rfl⟩
  | cons c bytes ih =>
      rw [List.forall_mem_cons] at hBytes
      have hNext : parseUrlChar scan.s c = .path := by
        rw [hState]
        exact hBytes.1
      have hField : UrlState.path.field = some .path := rfl
      have hChar :=
        UrlScan.char_of_field (p := p) hNext hField
      have hNextState :
          (scan.extend p .path .path).s = .path := rfl
      obtain ⟨last, hLoop, hFoundAt, hFields⟩ :=
        ih (p := p + 1) hNextState hBytes.2
      refine ⟨last, ?_, ?_, ?_⟩
      · rw [UrlScan.loop, hChar, Option.bind_some]
        exact hLoop
      · rw [hFoundAt]
        exact Bool.or_false _
      · intro uf hUf
        rw [hFields uf hUf]
        exact UrlScan.extend_fieldData_of_ne hUf

theorem UrlScan.loop_append
    (scan : UrlScan)
    (p : Nat)
    (first second : Bytes) :
    scan.loop p (first ++ second) =
      (scan.loop p first).bind fun next =>
        next.loop (p + first.length) second := by
  induction first generalizing scan p with
  | nil => rfl
  | cons c first ih =>
      rw [List.cons_append, UrlScan.loop, UrlScan.loop,
        Option.bind_assoc]
      refine congrArg _ (funext ?_)
      intro next
      rw [ih, List.length_cons, Nat.add_right_comm,
        Nat.add_assoc]

/- A URL whose path is a slash and a number of letters. -/
def longUrl (count : Nat) : Bytes :=
  ascii "http://a/" ++ List.replicate count 98

/- The scan of what stands before the letters. -/
def longFront : UrlScan :=
  (({ s := .spacesBeforeUrl } : UrlScan).loop 0
    (ascii "http://a/")).get (by decide +kernel)

theorem longUrl_scan (count : Nat) :
    ∃ scan,
      ({ s := .spacesBeforeUrl } : UrlScan).loop 0
          (longUrl count) =
          some scan ∧
        scan.foundAt = false ∧
          ∀ uf, uf ≠ .path →
            scan.u.fieldData uf = longFront.u.fieldData uf := by
  have hFront :
      ({ s := .spacesBeforeUrl } : UrlScan).loop 0
          (ascii "http://a/") =
        some longFront :=
    (Option.some_get _).symm
  have hBytes :
      ∀ c ∈ List.replicate count (98 : UInt8),
        parseUrlChar .path c = .path := by
    intro c hMem
    rw [List.eq_of_mem_replicate hMem]
    decide
  have hState : longFront.s = .path := by decide +kernel
  obtain ⟨scan, hLoop, hFoundAt, hFields⟩ :=
    UrlScan.loop_path (p := 0 + (ascii "http://a/").length)
      hState hBytes
  refine ⟨scan, ?_, hFoundAt.trans (by decide +kernel),
    hFields⟩
  rw [longUrl, UrlScan.loop_append, hFront]
  exact hLoop

/- The host `a` is one letter behind the marks. -/
theorem httpParseHost_longUrl
    (count : Nat)
    {u : HttpParserUrl}
    (hHost : u.fieldData .host = some ⟨7, 1⟩) :
    ∃ parsed,
      httpParseHost (longUrl count) u false = some parsed ∧
        parsed.isSet .host = true ∧
          ∀ uf, uf ≠ .host →
            parsed.fieldData uf = u.fieldData uf := by
  have hText : ((longUrl count).drop 7).take 1 = [97] := by
    have hFront :
        ascii "http://a/" = ascii "http://" ++ [97, 47] := by
      decide
    rw [longUrl, hFront, List.append_assoc,
      List.drop_left' (by decide)]
    rfl
  rw [httpParseHost, hHost]
  simp only [hText]
  refine ⟨_, rfl, rfl, ?_⟩
  intro uf hUf
  exact (Function.update_of_ne hUf _ _).trans
    (Function.update_of_ne hUf _ _)

theorem submittableUrl_longUrl (count : Nat) :
    ∃ u, submittableUrl (longUrl count) = some u := by
  obtain ⟨scan, hLoop, hFoundAt, hFields⟩ :=
    longUrl_scan count
  have hHost : scan.u.fieldData .host = some ⟨7, 1⟩ :=
    (hFields .host (by simp)).trans (by decide +kernel)
  have hPort : scan.u.fieldData .port = none :=
    (hFields .port (by simp)).trans (by decide +kernel)
  have hSchema : scan.u.fieldData .schema = some ⟨0, 4⟩ :=
    (hFields .schema (by simp)).trans (by decide +kernel)
  obtain ⟨parsed, hParsed, hHostSet, hSame⟩ :=
    httpParseHost_longUrl count hHost
  have hSchemaSet : parsed.isSet .schema = true := by
    rw [HttpParserUrl.isSet, hSame .schema (by simp), hSchema]
    rfl
  have hParse :
      httpParserParseUrl (longUrl count) = some parsed := by
    rw [httpParserParseUrl, hLoop, Option.bind_some]
    simp [HttpParserUrl.isSet, hHost, hFoundAt, hParsed,
      hSame .port (by simp), hPort]
  refine ⟨parsed, ?_⟩
  rw [submittableUrl, hParse]
  simp [Option.filter, hHostSet, hSchemaSet]

/- The parts of that URL. -/
def longText (count : Nat) : UrlText where
  scheme := ascii "http"
  authority := [97]
  path := 47 :: List.replicate count 98
  scheme_chars := by decide +kernel
  scheme_nonempty := by decide
  authority_chars := by decide +kernel
  path_head := by simp
  path_chars := by
    intro c hMem
    rcases List.mem_cons.mp hMem with rfl | hLetter
    · decide
    · rw [List.eq_of_mem_replicate hLetter]
      decide
  query_chars := by simp
  fragment_after := by simp

theorem longText_bytes (count : Nat) :
    (longText count).bytes = longUrl count := by
  have hFront :
      ascii "http://a/" =
        ascii "http" ++ ascii "://" ++ [97, 47] := by
    decide
  rw [longUrl, hFront]
  simp [UrlText.bytes, UrlText.front, UrlText.marked,
    longText]

theorem requestTarget_longUrl (count : Nat) :
    requestTarget (longUrl count) =
      47 :: List.replicate count 98 := by
  have hNone : (longText count).queryText = [] := rfl
  rw [requestTarget, ← longText_bytes, UrlText.pathOf_bytes,
    UrlText.queryOf_bytes, hNone, if_pos rfl, List.append_nil]
  rfl

/- Of that path no more is sent than its length counts. -/
theorem submittedPath_longUrl
    {count : Nat}
    (hCount : (count + 1) % 2 ^ 16 = 1)
    {u : HttpParserUrl}
    (hUrl : submittableUrl (longUrl count) = some u) :
    submittedPath (longUrl count) u = ascii "/" := by
  obtain ⟨text, hText, hPath, hQuery⟩ :=
    urlText_of_submittable hUrl
  have hBytes : text.bytes = (longText count).bytes :=
    hText.symm.trans (longText_bytes count).symm
  have hSamePath :
      text.path = 47 :: List.replicate count 98 := by
    rw [← text.pathOf_bytes, hBytes, UrlText.pathOf_bytes]
    rfl
  have hSameStart : text.pathStart = 8 := by
    rw [← text.pathOffset_bytes, hBytes,
      UrlText.pathOffset_bytes]
    rfl
  have hSameQuery : text.queryText = [] := by
    rw [← text.queryOf_bytes, hBytes, UrlText.queryOf_bytes]
    rfl
  have hUnset : u.isSet .query = false := by
    simp [HttpParserUrl.isSet, hQuery, hSameQuery, fieldAt_nil]
  have hStands := text.standsAt_path.isPrefix
  rw [hSameStart, hSamePath, ← hText] at hStands
  obtain ⟨rest, hRest⟩ := hStands
  have hComponent : u.component (longUrl count) .path = [47] := by
    rw [HttpParserUrl.component, hPath, hSameStart, hSamePath]
    simp only [fieldAt, toUint16, List.length_cons,
      List.length_replicate, hCount, reduceCtorEq, if_false]
    change ((longUrl count).drop 8).take 1 = [47]
    rw [← hRest]
    rfl
  rw [submittedPath, hUnset, hComponent,
    if_neg Bool.false_ne_true]
  decide

/-
  Of a slash and 65536 letters the slash alone is sent: the
  length of the path is counted as one.
-/
theorem sentPath_longUrl :
    ∃ u,
      submittableUrl (longUrl 65536) = some u ∧
        sentPath
            (submittedNva
              { url := longUrl 65536, method := ascii "GET" }
              u []) =
          some (ascii "/") ∧
        requestTarget (longUrl 65536) ≠ ascii "/" := by
  obtain ⟨u, hUrl⟩ := submittableUrl_longUrl 65536
  refine ⟨u, hUrl, ?_, ?_⟩
  · rw [sentPath_submittedNva]
    exact congrArg some
      (submittedPath_longUrl (by decide) hUrl)
  · intro hSame
    rw [requestTarget_longUrl] at hSame
    have hLength := congrArg List.length hSame
    rw [List.length_cons, List.length_replicate] at hLength
    exact absurd hLength (by decide)

end Network
