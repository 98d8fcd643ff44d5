import XMLHttpRequest.Url.HostForm
import XMLHttpRequest.Url.UrlText

/-
  What `http_parse_host` finds in the server part of a URL.

  It touches the fields of the host, the port and the user
  information and no others.  Without user information and
  without a bracket, the server part is a host with an
  optional port, and the two fields are theirs.

  Key definitions include:
    * `Network.HostScanned`

  Key theorems include:
    * `Network.httpParseHost_fieldData`
    * `Network.hostScanned_loop`
    * `Network.hostText_of_httpParseHost`
    * `Network.urlText_of_submittable`
-/

------------------------------------------------------------
-- The Fields of the Host
------------------------------------------------------------

namespace Network

/- The fields that `http_parse_host` may set. -/
def UrlField.ofHost : UrlField → Bool
  | .host | .port | .userinfo => true
  | _ => false

theorem HostScan.extend_fieldData
    (scan : HostScan)
    (newS : HostState)
    (p : Nat)
    {set uf : UrlField}
    (hOther : uf ≠ set) :
    (scan.extend newS set p).fieldData uf =
      scan.u.fieldData uf := by
  rw [HostScan.extend]
  split
  · exact Function.update_of_ne hOther _ _
  · exact Function.update_of_ne hOther _ _

theorem HostScan.char_fieldData
    {scan next : HostScan}
    {p : Nat}
    {ch : UInt8}
    (hChar : scan.char p ch = some next)
    {uf : UrlField}
    (hOther : uf.ofHost = false) :
    next.u.fieldData uf = scan.u.fieldData uf := by
  have hHost : uf ≠ .host := by
    rintro rfl
    simp [UrlField.ofHost] at hOther
  have hPort : uf ≠ .port := by
    rintro rfl
    simp [UrlField.ofHost] at hOther
  have hUserinfo : uf ≠ .userinfo := by
    rintro rfl
    simp [UrlField.ofHost] at hOther
  rw [HostScan.char] at hChar
  split at hChar
  · simp at hChar
  all_goals
    rw [Option.some.injEq] at hChar
    subst hChar
  · exact Function.update_of_ne hHost _ _
  · exact Function.update_of_ne hHost _ _
  · exact Function.update_of_ne hHost _ _
  · exact Function.update_of_ne hHost _ _
  · exact scan.extend_fieldData _ p hPort
  · exact scan.extend_fieldData _ p hUserinfo
  · rfl

theorem HostScan.loop_fieldData
    {scan last : HostScan}
    {p : Nat}
    {buf : Bytes}
    (hLoop : scan.loop p buf = some last)
    {uf : UrlField}
    (hOther : uf.ofHost = false) :
    last.u.fieldData uf = scan.u.fieldData uf := by
  induction buf generalizing scan p with
  | nil =>
      rw [HostScan.loop, Option.some.injEq] at hLoop
      rw [hLoop]
  | cons ch buf ih =>
      rw [HostScan.loop, Option.bind_eq_some_iff] at hLoop
      obtain ⟨next, hChar, hRest⟩ := hLoop
      exact (ih hRest).trans
        (HostScan.char_fieldData hChar hOther)

/- The scan of a host leaves the other fields alone. -/
theorem httpParseHost_fieldData
    {buf : Bytes}
    {u parsed : HttpParserUrl}
    {foundAt : Bool}
    (hParse : httpParseHost buf u foundAt = some parsed)
    {uf : UrlField}
    (hOther : uf.ofHost = false) :
    parsed.fieldData uf = u.fieldData uf := by
  rw [httpParseHost] at hParse
  cases hHost : u.fieldData .host with
  | none =>
      rw [hHost, Option.some.injEq] at hParse
      rw [hParse]
  | some data =>
      rw [hHost, Option.bind_eq_some_iff] at hParse
      obtain ⟨last, hLoop, hAccept⟩ := hParse
      have hLast := HostScan.loop_fieldData hLoop hOther
      have hNotHost : uf ≠ .host := by
        rintro rfl
        simp [UrlField.ofHost] at hOther
      split at hAccept
      · rw [Option.some.injEq] at hAccept
        rw [← hAccept, hLast]
        exact Function.update_of_ne hNotHost _ _
      · simp at hAccept

end Network

------------------------------------------------------------
-- Parsed URLs
------------------------------------------------------------

namespace Network

/- What a successful parse has gone through. -/
theorem httpParserParseUrl_cases
    {url : Bytes}
    {u : HttpParserUrl}
    (hParse : httpParserParseUrl url = some u) :
    ∃ scan parsed,
      ({ s := .spacesBeforeUrl } : UrlScan).loop 0 url =
          some scan ∧
        (scan.u.isSet .schema = true →
          scan.u.isSet .host = true) ∧
          httpParseHost url scan.u scan.foundAt =
              some parsed ∧
            u.fieldData = parsed.fieldData := by
  rw [httpParserParseUrl, Option.bind_eq_some_iff] at hParse
  obtain ⟨scan, hLoop, hHost⟩ := hParse
  split at hHost
  · simp at hHost
  · rename_i hPresent
    rw [Option.bind_eq_some_iff] at hHost
    obtain ⟨parsed, hParsed, hPort⟩ := hHost
    refine ⟨scan, parsed, hLoop, ?_, hParsed, ?_⟩
    · simpa using hPresent
    · split at hPort
      · rw [Option.some.injEq] at hPort
        rw [hPort]
      · simp only at hPort
        split at hPort
        · simp at hPort
        · rw [Option.some.injEq] at hPort
          rw [← hPort]

/- A scheme is set by the scan or not at all. -/
theorem isSet_schema_of_httpParseHost
    {buf : Bytes}
    {scanned parsed u : HttpParserUrl}
    {foundAt : Bool}
    (hParse : httpParseHost buf scanned foundAt = some parsed)
    (hFields : u.fieldData = parsed.fieldData) :
    u.isSet .schema = scanned.isSet .schema := by
  have hOther : UrlField.schema.ofHost = false := rfl
  rw [HttpParserUrl.isSet, hFields,
    httpParseHost_fieldData hParse hOther]
  rfl

/- A parsed URL with a scheme has the fields of its text. -/
theorem urlText_of_parse
    {url : Bytes}
    {u : HttpParserUrl}
    (hParse : httpParserParseUrl url = some u)
    (hSchema : u.isSet .schema = true) :
    ∃ scan, ∃ text : UrlText,
      url = text.bytes ∧ text.authority ≠ [] ∧
        text.Recorded scan ∧
          (∃ parsed,
            httpParseHost url scan.u scan.foundAt =
                some parsed ∧
              u.fieldData = parsed.fieldData) ∧
            ∀ uf, uf ≠ .fragment → uf.ofHost = false →
              u.fieldData uf = text.fields uf := by
  obtain ⟨scan, parsed, hLoop, hPresent, hHost, hFields⟩ :=
    httpParserParseUrl_cases hParse
  have hSame := isSet_schema_of_httpParseHost hHost hFields
  have hScanned : scan.u.isSet .schema = true :=
    hSame ▸ hSchema
  obtain ⟨text, hUrl, hAuthority, hRecorded⟩ :=
    urlText_of_loop hLoop hScanned (hPresent hScanned)
  refine ⟨scan, text, hUrl, hAuthority, hRecorded,
    ⟨parsed, hHost, hFields⟩, ?_⟩
  intro uf hFragment hOther
  rw [hFields, httpParseHost_fieldData hHost hOther]
  exact hRecorded.fields uf hFragment

end Network

------------------------------------------------------------
-- A Host Without User Information
------------------------------------------------------------

namespace Network

/- A host, and where its field is. -/
structure HostRecorded
    (off : Nat)
    (host : Bytes)
    (u : HttpParserUrl) : Prop where
  nonempty : host ≠ []
  chars : ∀ c ∈ host, isHostChar c = true
  field : u.fieldData .host = fieldAt off host

theorem setField_host_port
    (u : HttpParserUrl)
    (data : FieldData) :
    (u.setField .host data).fieldData .port =
      u.fieldData .port :=
  rfl

theorem HostScan.extendHost_port
    (scan : HostScan)
    (newS : HostState)
    (p : Nat) :
    (scan.extendHost newS p).fieldData .port =
      scan.u.fieldData .port :=
  rfl

/- What is known of the scan of a host after a text. -/
inductive HostScanned (off : Nat) : Bytes → HostScan → Prop
  | start {u : HttpParserUrl} {data : FieldData} :
      data.len = 0 →
        u.fieldData .host = some data →
          u.fieldData .port = none →
            HostScanned off [] ⟨.hostStart, u⟩
  | host {host : Bytes} {u : HttpParserUrl} :
      HostRecorded off host u →
        u.fieldData .port = none →
          HostScanned off host ⟨.host, u⟩
  | portStart {host : Bytes} {u : HttpParserUrl} :
      HostRecorded off host u →
        u.fieldData .port = none →
          HostScanned off (host ++ [58]) ⟨.hostPortStart, u⟩
  | port {host port : Bytes} {u : HttpParserUrl} :
      HostRecorded off host u →
        IsPort port →
          u.fieldData .port =
              fieldAt (off + host.length + 1) port →
            HostScanned off (host ++ 58 :: port)
              ⟨.hostPort, u⟩
  | bracket {text : Bytes} {scan : HostScan} :
      text.head? = some 91 → HostScanned off text scan

variable {off : Nat}
variable {u : HttpParserUrl}
variable {next : HostScan}
variable {ch : UInt8}

theorem hostScanned_start_char
    {data : FieldData}
    (hEmpty : data.len = 0)
    (hHost : u.fieldData .host = some data)
    (hPort : u.fieldData .port = none)
    (hChar :
      (⟨.hostStart, u⟩ : HostScan).char off ch = some next) :
    HostScanned off [ch] next := by
  by_cases hBracket : ch = 91
  · exact .bracket (by rw [hBracket]; rfl)
  by_cases hLetter : isHostChar ch = true
  · have hState :
        httpParseHostChar .hostStart ch = .host := by
      simp [httpParseHostChar, hBracket, hLetter]
    simp only [HostScan.char, hState,
      Option.some.injEq] at hChar
    subst hChar
    refine .host
      { nonempty := by simp
        chars := by simpa using hLetter
        field := ?_ } ?_
    · simp [HostScan.extendHost, HttpParserUrl.changeField,
        hHost, FieldData.grow, hEmpty, fieldAt]
    · exact (HostScan.extendHost_port _ _ _).trans hPort
  · have hState :
        httpParseHostChar .hostStart ch = .dead := by
      simp [httpParseHostChar, hBracket, hLetter]
    simp [HostScan.char, hState] at hChar

theorem hostScanned_host_char
    {host : Bytes}
    (hRecorded : HostRecorded off host u)
    (hPort : u.fieldData .port = none)
    (hChar :
      (⟨.host, u⟩ : HostScan).char (off + host.length) ch =
        some next) :
    HostScanned off (host ++ [ch]) next := by
  by_cases hLetter : isHostChar ch = true
  · have hState : httpParseHostChar .host ch = .host := by
      simp [httpParseHostChar, hLetter]
    simp only [HostScan.char, hState,
      Option.some.injEq] at hChar
    subst hChar
    refine .host
      { nonempty := by simp
        chars := ?_
        field := ?_ } ?_
    · simpa [or_imp, forall_and, hLetter]
        using hRecorded.chars
    · simp only [HostScan.extendHost,
        HttpParserUrl.changeField, hRecorded.field, fieldAt,
        if_neg hRecorded.nonempty, if_true,
        Option.map_some, FieldData.grow, Function.update_self]
      rw [if_neg (by simp), List.length_append]
      congr 2
      simp only [toUint16, List.length_singleton]
      omega
    · exact (HostScan.extendHost_port _ _ _).trans hPort
  by_cases hColon : ch = 58
  · subst hColon
    have hState :
        httpParseHostChar .host 58 = .hostPortStart := by
      decide
    simp only [HostScan.char, hState,
      Option.some.injEq] at hChar
    subst hChar
    exact .portStart hRecorded hPort
  · have hState : httpParseHostChar .host ch = .dead := by
      simp [httpParseHostChar, hLetter, hColon]
    simp [HostScan.char, hState] at hChar

/- A first digit starts the field of the port. -/
theorem hostScanned_portStart_char
    {host : Bytes}
    (hRecorded : HostRecorded off host u)
    (hChar :
      (⟨.hostPortStart, u⟩ : HostScan).char
          (off + (host ++ [58]).length) ch =
        some next) :
    HostScanned off (host ++ [58] ++ [ch]) next := by
  by_cases hDigit : isDigit ch = true
  · have hState :
        httpParseHostChar .hostPortStart ch = .hostPort := by
      simp [httpParseHostChar, hDigit]
    simp only [HostScan.char, hState,
      Option.some.injEq] at hChar
    subst hChar
    rw [List.append_assoc]
    refine .port
      { nonempty := hRecorded.nonempty
        chars := hRecorded.chars
        field := ?_ }
      ⟨by simp, by simpa using hDigit⟩ ?_
    · exact (HostScan.extend_fieldData _ _ _ (by simp)).trans
        hRecorded.field
    · simp [HostScan.extend, HttpParserUrl.setField,
        FieldData.start, fieldAt, toUint16, Nat.add_assoc]
  · have hState :
        httpParseHostChar .hostPortStart ch = .dead := by
      simp [httpParseHostChar, hDigit]
    simp [HostScan.char, hState] at hChar

theorem hostScanned_port_char
    {host port : Bytes}
    (hRecorded : HostRecorded off host u)
    (hPort : IsPort port)
    (hField :
      u.fieldData .port =
        fieldAt (off + host.length + 1) port)
    {p : Nat}
    (hChar :
      (⟨.hostPort, u⟩ : HostScan).char p ch = some next) :
    HostScanned off (host ++ 58 :: port ++ [ch]) next := by
  by_cases hDigit : isDigit ch = true
  · have hState :
        httpParseHostChar .hostPort ch = .hostPort := by
      simp [httpParseHostChar, hDigit]
    simp only [HostScan.char, hState,
      Option.some.injEq] at hChar
    subst hChar
    rw [List.append_assoc, List.cons_append]
    refine .port
      { nonempty := hRecorded.nonempty
        chars := hRecorded.chars
        field := ?_ }
      ⟨by simp, ?_⟩ ?_
    · exact (HostScan.extend_fieldData _ _ _ (by simp)).trans
        hRecorded.field
    · simpa [or_imp, forall_and, hDigit] using hPort.chars
    · simp only [HostScan.extend, if_true,
        HttpParserUrl.changeField, hField, fieldAt,
        if_neg hPort.nonempty, Option.map_some,
        FieldData.grow, Function.update_self]
      rw [if_neg (by simp), List.length_append]
      congr 2
      simp only [toUint16, List.length_singleton]
      omega
  · have hState :
        httpParseHostChar .hostPort ch = .dead := by
      simp [httpParseHostChar, hDigit]
    simp [HostScan.char, hState] at hChar

theorem hostScanned_char
    {text : Bytes}
    {scan : HostScan}
    (hScanned : HostScanned off text scan)
    (hChar : scan.char (off + text.length) ch = some next) :
    HostScanned off (text ++ [ch]) next := by
  cases hScanned with
  | start hEmpty hHost hPort =>
      exact hostScanned_start_char hEmpty hHost hPort hChar
  | host hRecorded hPort =>
      exact hostScanned_host_char hRecorded hPort hChar
  | portStart hRecorded hPort =>
      exact hostScanned_portStart_char hRecorded hChar
  | port hRecorded hPort hField =>
      exact hostScanned_port_char hRecorded hPort hField hChar
  | bracket hHead =>
      have hNonempty : text ≠ [] := by
        rintro rfl
        simp at hHead
      exact .bracket (by
        rw [List.head?_append_of_ne_nil _ hNonempty]
        exact hHead)

theorem hostScanned_loop
    {text rest : Bytes}
    {scan last : HostScan}
    (hScanned : HostScanned off text scan)
    (hLoop : scan.loop (off + text.length) rest = some last) :
    HostScanned off (text ++ rest) last := by
  induction rest generalizing text scan with
  | nil =>
      rw [HostScan.loop, Option.some.injEq] at hLoop
      rw [List.append_nil]
      exact hLoop ▸ hScanned
  | cons ch rest ih =>
      rw [HostScan.loop, Option.bind_eq_some_iff] at hLoop
      obtain ⟨next, hChar, hRest⟩ := hLoop
      have hNext := hostScanned_char hScanned hChar
      have hLength :
          off + text.length + 1 =
            off + (text ++ [ch]).length := by
        rw [List.length_append, List.length_singleton]
        omega
      rw [hLength] at hRest
      rw [List.append_cons]
      exact ih hNext hRest

/- A server part without a bracket is a host and a port. -/
theorem hostText_of_httpParseHost
    {buf : Bytes}
    {parsed : HttpParserUrl}
    {data : FieldData}
    (hHost : u.fieldData .host = some data)
    (hPort : u.fieldData .port = none)
    (hBracket :
      ((buf.drop data.off).take data.len).head? ≠ some 91)
    (hParse : httpParseHost buf u false = some parsed) :
    ∃ host, ∃ port : Option Bytes,
      (buf.drop data.off).take data.len =
          hostPortText host port ∧
        HostRecorded data.off host parsed ∧
          (∀ text ∈ port, IsPort text) ∧
            parsed.fieldData .port =
              port.bind
                (fieldAt (data.off + host.length + 1)) := by
  rw [httpParseHost, hHost] at hParse
  simp only [Bool.false_eq_true, if_false] at hParse
  rw [Option.bind_eq_some_iff] at hParse
  obtain ⟨last, hLoop, hAccept⟩ := hParse
  have hStart :
      HostScanned data.off []
        ⟨.hostStart, u.setField .host ⟨data.off, 0⟩⟩ := by
    have hEmpty : (⟨data.off, 0⟩ : FieldData).len = 0 := rfl
    refine .start hEmpty ?_ ?_
    · exact Function.update_self .host _ u.fieldData
    · exact (setField_host_port _ _).trans hPort
  have hLast := hostScanned_loop hStart hLoop
  rw [List.nil_append] at hLast
  split at hAccept
  · rename_i hAccepting
    rw [Option.some.injEq] at hAccept
    subst hAccept
    generalize (buf.drop data.off).take data.len = text
      at hLast hBracket
    cases hLast with
    | start => simp [HostState.accepting] at hAccepting
    | host hRecorded hNone =>
        exact ⟨text, none, by simp [hostPortText],
          hRecorded, by simp, hNone⟩
    | portStart => simp [HostState.accepting] at hAccepting
    | @port host port u hRecorded hDigits hField =>
        exact ⟨host, some port, rfl, hRecorded,
          by simpa using hDigits, hField⟩
    | bracket hHead => exact absurd hHead hBracket
  · simp at hAccept

end Network
