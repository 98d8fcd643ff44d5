import XMLHttpRequest.Url.Elements
import XMLHttpRequest.Url.UrlParts

/-
  The two URL parsers side by side.

  `proccessUri` says where to connect, and the parser that
  `submit` uses says which host the URL names.  They agree on
  a plain URL: one whose authority is nothing but a host in
  lower case with an optional port.

  Key definitions include:
    * `Network.Agrees`
    * `Network.PlainText`
    * `Network.IsPlain`

  Key theorems include:
    * `Network.agrees_of_isPlain`
    * `Network.isPlain_of_agrees`
    * `Network.agrees_iff_isPlain`
-/

------------------------------------------------------------
-- Agreement
------------------------------------------------------------

namespace Network

/- The elements are what the other parser finds in a URL. -/
structure Agrees
    (url : Bytes)
    (elements : Elements)
    (u : HttpParserUrl) : Prop where
  addr : elements.addr = u.component url .host
  protocol : elements.protocol = u.component url .schema
  port :
    u.isSet .port = true →
      elements.port = u.component url .port
  defaultPort :
    u.isSet .port = false →
      IsScheme elements.protocol →
        elements.port = defaultPort elements.protocol

/- An authority that is a host with an optional port. -/
structure PlainText where
  scheme : Bytes
  host : Bytes
  port : Option Bytes
  tail : Bytes
  scheme_chars : ∀ c ∈ scheme, isProtocolChar c = true
  scheme_length : 4 ≤ scheme.length ∧ scheme.length ≤ 5
  host_chars : ∀ c ∈ host, isAddressChar c = true ∧ c ≠ 58
  -- a port comes behind labels, within the reach of 16 bits
  port_place :
    ∀ text ∈ port,
      IsHost host ∧ IsPort text ∧
        scheme.length + 3 + host.length + 1 < 2 ^ 16
  address_length :
    3 ≤ (hostPortText host port).length ∧
      (hostPortText host port).length < 2 ^ 16
  tail_head : ∀ c ∈ tail.head?, c = 47 ∨ c = 63

namespace PlainText

variable (plain : PlainText)

def address : Bytes :=
  hostPortText plain.host plain.port

def bytes : Bytes :=
  plain.scheme ++ (ascii "://" ++
    (plain.address ++ plain.tail))

end PlainText

def IsPlain (url : Bytes) : Prop :=
  ∃ plain : PlainText, url = plain.bytes

end Network

------------------------------------------------------------
-- Authorities
------------------------------------------------------------

namespace Network

namespace UriText

variable (text : UriText)

theorem protocol_letters :
    ∀ c ∈ text.protocol, isAlpha c = true := by
  intro c hMem
  have hLetter := text.protocol_chars c hMem
  rw [isProtocolChar_iff] at hLetter
  simp only [isAlpha, UInt8.le_iff_toNat_le, Bool.or_eq_true,
    Bool.and_eq_true, decide_eq_true_eq, UInt8.reduceToNat]
  omega

/- The protocol ends at the first colon. -/
theorem takeWhile_bytes :
    text.bytes.takeWhile (fun c => decide (c ≠ 58)) =
      text.protocol := by
  refine takeWhile_append_of_head? ?_ ?_
  · intro c hMem
    apply decide_eq_true
    intro hColon
    have hLetter := text.protocol_chars c hMem
    rw [hColon] at hLetter
    exact absurd hLetter (by decide)
  · intro c hHead
    have hColon : c = 58 := by
      simpa [afterProtocol, ascii, eq_comm] using hHead
    rw [hColon]
    rfl

/- The authority may reach further than the address. -/
theorem authorityOf_bytes :
    authorityOf text.bytes =
      text.address ++
        text.tail.takeWhile fun c => c ≠ 47 && c ≠ 63 := by
  have hMarks : ascii "://" = [58, 47, 47] := by decide
  have hAfter :
      afterScheme text.bytes = text.address ++ text.tail := by
    rw [afterScheme, ← drop_length_takeWhile,
      text.takeWhile_bytes, bytes, List.drop_left' rfl,
      afterProtocol, hMarks]
    rfl
  have hAddress :
      ∀ c ∈ text.address,
        (decide (c ≠ 47) && decide (c ≠ 63)) = true := by
    intro c hMem
    have hChar := text.address_chars c hMem
    rw [isAddressChar_iff] at hChar
    have hSlash : c ≠ 47 := by
      rintro rfl
      exact absurd hChar (by decide)
    have hMark : c ≠ 63 := by
      rintro rfl
      exact absurd hChar (by decide)
    simp [hSlash, hMark]
  rw [authorityOf, hAfter]
  exact List.takeWhile_append_of_pos hAddress

end UriText

end Network

------------------------------------------------------------
-- Plain URLs
------------------------------------------------------------

namespace Network

theorem hostPortText_inj
    {host other : Bytes}
    {port digits : Option Bytes}
    (hHost : (58 : UInt8) ∉ host)
    (hOther : (58 : UInt8) ∉ other)
    (hSame :
      hostPortText host port = hostPortText other digits) :
    host = other ∧ port = digits := by
  have hRun :
      ∀ {front : Bytes} (after : Option Bytes),
        (58 : UInt8) ∉ front →
          (hostPortText front after).takeWhile
              (fun c => decide (c ≠ 58)) =
            front := by
    intro front after hFront
    refine takeWhile_append_of_head? ?_ ?_
    · intro c hMem
      exact decide_eq_true fun hColon =>
        hFront (hColon ▸ hMem)
    · cases after with
      | none => simp
      | some text => simp
  have hFront : host = other := by
    rw [← hRun port hHost, ← hRun digits hOther, hSame]
  subst hFront
  refine ⟨rfl, ?_⟩
  have hBack := List.append_cancel_left hSame
  cases port with
  | none =>
      cases digits with
      | none => rfl
      | some text => simp at hBack
  | some port =>
      cases digits with
      | none => simp at hBack
      | some text =>
          exact congrArg some (List.cons.inj hBack).2

namespace PlainText

variable (plain : PlainText)

theorem host_colon : (58 : UInt8) ∉ plain.host := fun hMem =>
  (plain.host_chars 58 hMem).2 rfl

theorem address_chars :
    ∀ c ∈ plain.address, isAddressChar c = true := by
  intro c hMem
  rcases List.mem_append.mp hMem with hHost | hPort
  · exact (plain.host_chars c hHost).1
  · cases hSome : plain.port with
    | none => simp [hSome] at hPort
    | some text =>
        rw [hSome] at hPort
        rcases List.mem_cons.mp hPort with rfl | hDigit
        · decide
        · exact isAddressChar_of_isDigit
            ((plain.port_place text hSome).2.1.chars c
              hDigit)

/- A plain URL has the form that `proccessUri` takes. -/
def uriText : UriText where
  protocol := plain.scheme
  address := plain.address
  tail := plain.tail
  protocol_chars := plain.scheme_chars
  protocol_length := plain.scheme_length
  address_chars := plain.address_chars
  address_length := plain.address_length.1
  tail_head := by
    intro c hHead
    rcases plain.tail_head c hHead with rfl | rfl
    · decide
    · decide

theorem uriText_bytes : plain.uriText.bytes = plain.bytes :=
  rfl

/- Its address is cut where its port begins. -/
theorem hostAndPort_address :
    hostAndPort plain.address =
      (plain.host, plain.port.getD []) := by
  cases hPort : plain.port with
  | some text =>
      obtain ⟨hHost, hDigits, -⟩ := plain.port_place text hPort
      rw [address, hPort]
      exact hostAndPort_of_port hHost hDigits
  | none =>
      have hText : plain.address = plain.host := by
        rw [address, hPort]
        exact List.append_nil _
      rw [hText]
      refine hostAndPort_of_not
        (fun c hMem => (plain.host_chars c hMem).1) ?_
      rintro ⟨other, digits, -, -, hSame⟩
      exact plain.host_colon (by simp [hSame])

/- The address is the whole authority. -/
theorem authorityOf_bytes :
    authorityOf plain.bytes = plain.address := by
  have hTail :
      plain.tail.takeWhile (fun c => c ≠ 47 && c ≠ 63) =
        [] := by
    cases hFirst : plain.tail with
    | nil => rfl
    | cons c rest =>
        rcases plain.tail_head c (by simp [hFirst]) with
          rfl | rfl
        · rfl
        · rfl
  have hAuthority := plain.uriText.authorityOf_bytes
  rw [plain.uriText_bytes] at hAuthority
  rw [hAuthority]
  change plain.address ++ plain.tail.takeWhile _ = _
  rw [hTail, List.append_nil]

end PlainText

end Network

------------------------------------------------------------
-- What the Other Parser Finds
------------------------------------------------------------

namespace Network

/- A host and a port in an authority, and their fields. -/
structure Found
    (text : UrlText)
    (host : Bytes)
    (port : Option Bytes)
    (u : HttpParserUrl) : Prop where
  authority : text.authority = hostPortText host port
  host_colon : (58 : UInt8) ∉ host
  port_digits : ∀ digits ∈ port, IsPort digits
  hostStart : text.hostStart < 2 ^ 16
  length : text.authority.length < 2 ^ 16
  schemaField : u.fieldData .schema = fieldAt 0 text.scheme
  hostField :
    u.fieldData .host = fieldAt text.hostStart host
  portField :
    u.fieldData .port =
      port.bind (fieldAt (text.hostStart + host.length + 1))

/- Without user information or a bracket they are found. -/
theorem found_of_parse
    {url : Bytes}
    {u : HttpParserUrl}
    (hParse : httpParserParseUrl url = some u)
    (hSchema : u.isSet .schema = true)
    (hAt : (64 : UInt8) ∉ authorityOf url)
    (hBracket : (authorityOf url).head? ≠ some 91)
    (hStart :
      (url.takeWhile fun c => decide (c ≠ 58)).length + 3 <
        2 ^ 16)
    (hLength : (authorityOf url).length < 2 ^ 16) :
    ∃ text : UrlText, ∃ host port,
      url = text.bytes ∧ Found text host port u := by
  obtain ⟨scan, text, rfl, hAuthority, hRecorded,
    ⟨parsed, hHost, hFields⟩, hOthers⟩ :=
      urlText_of_parse hParse hSchema
  rw [text.takeWhile_bytes] at hStart
  rw [text.authorityOf_bytes] at hAt hBracket hLength
  have hPlace : text.hostStart < 2 ^ 16 := hStart
  have hField :
      scan.u.fieldData .host =
        some ⟨text.hostStart, text.authority.length⟩ := by
    rw [hRecorded.fields .host (by simp)]
    simp only [UrlText.fields, fieldAt, if_neg hAuthority,
      toUint16, Nat.mod_eq_of_lt hLength,
      Nat.mod_eq_of_lt hPlace]
  have hPort : scan.u.fieldData .port = none :=
    hRecorded.fields .port (by simp)
  have hFoundAt : scan.foundAt = false := by
    rw [hRecorded.foundAt]
    exact decide_eq_false hAt
  have hText := text.standsAt_authority.take
  rw [hFoundAt] at hHost
  obtain ⟨host, port, hSplit, hRead, hDigits, hPortField⟩ :=
    hostText_of_httpParseHost hField hPort
      (by rw [hText]; exact hBracket) hHost
  refine ⟨text, host, port, rfl,
    { authority := hText.symm.trans hSplit
      host_colon := fun hMem => ?_
      port_digits := hDigits
      hostStart := hPlace
      length := hLength
      schemaField := hOthers .schema (by simp) rfl
      hostField := by rw [hFields]; exact hRead.field
      portField := by rw [hFields]; exact hPortField }⟩
  exact absurd (hRead.chars 58 hMem) (by decide)

namespace Found

variable {text : UrlText}
variable {host : Bytes}
variable {port : Option Bytes}
variable {u : HttpParserUrl}

/- The host and the port stand where their fields say. -/
theorem standsAt_host
    (hFound : Found text host port u) :
    StandsAt text.bytes text.hostStart host := by
  have hBoth := text.standsAt_authority
  rw [hFound.authority] at hBoth
  exact hBoth.split.1

theorem standsAt_port
    {digits : Bytes}
    (hFound : Found text host (some digits) u) :
    StandsAt text.bytes
      (text.hostStart + host.length + 1) digits := by
  have hBoth := text.standsAt_authority
  rw [hFound.authority] at hBoth
  have hMarked :
      StandsAt text.bytes (text.hostStart + host.length)
        ([58] ++ digits) :=
    hBoth.split.2
  exact hMarked.split.2

theorem host_length
    (hFound : Found text host port u) :
    host.length < 2 ^ 16 := by
  have hLength := hFound.length
  have hHost : host.length ≤ (hostPortText host port).length :=
    (List.prefix_append host _).length_le
  rw [hFound.authority] at hLength
  omega

theorem component_host
    (hFound : Found text host port u) :
    u.component text.bytes .host = host :=
  (component_eq_iff hFound.hostField
    hFound.standsAt_host).mpr
      ⟨hFound.host_length, Or.inl hFound.hostStart⟩

theorem component_schema
    (hFound : Found text host port u) :
    u.component text.bytes .schema = text.scheme := by
  have hStart := hFound.hostStart
  rw [UrlText.hostStart] at hStart
  exact (component_eq_iff hFound.schemaField
    text.standsAt_scheme).mpr
      ⟨by omega, Or.inl (by decide)⟩

theorem isSet_port_iff
    (hFound : Found text host port u) :
    u.isSet .port = true ↔ port ≠ none := by
  rw [HttpParserUrl.isSet, hFound.portField]
  cases port with
  | none => simp
  | some digits =>
      have hDigits := hFound.port_digits digits rfl
      simp [fieldAt, hDigits.nonempty]

theorem component_port_iff
    {digits : Bytes}
    (hFound : Found text host (some digits) u) :
    u.component text.bytes .port = digits ↔
      InReach text.bytes (text.hostStart + host.length + 1)
        digits :=
  component_eq_iff hFound.portField hFound.standsAt_port

end Found

/- A form begins with a letter, so it has a scheme. -/
theorem isSet_schema_of_uriText
    {form : UriText}
    {u : HttpParserUrl}
    (hParse : httpParserParseUrl form.bytes = some u) :
    u.isSet .schema = true := by
  obtain ⟨scan, parsed, hLoop, -, hHost, hFields⟩ :=
    httpParserParseUrl_cases hParse
  rw [isSet_schema_of_httpParseHost hHost hFields]
  cases hProtocol : form.protocol with
  | nil => exact absurd hProtocol form.protocol_ne_nil
  | cons first rest =>
      have hBytes :
          form.bytes = first :: (rest ++ form.afterProtocol) := by
        rw [UriText.bytes, hProtocol]
        rfl
      rw [hBytes] at hLoop
      exact isSet_schema_of_loop hLoop
        (form.protocol_letters first (by simp [hProtocol]))

/- The host and the port of a form without a user in it. -/
theorem found_of_uriText
    {form : UriText}
    {u : HttpParserUrl}
    (hParse : httpParserParseUrl form.bytes = some u)
    (hAt : (64 : UInt8) ∉ authorityOf form.bytes)
    (hLength : (authorityOf form.bytes).length < 2 ^ 16) :
    ∃ text : UrlText, ∃ host port,
      form.bytes = text.bytes ∧
        text.scheme = form.protocol ∧
        authorityOf form.bytes = hostPortText host port ∧
        Found text host port u := by
  have hBracket : (authorityOf form.bytes).head? ≠ some 91 := by
    intro hHead
    rw [form.authorityOf_bytes, List.head?_append_of_ne_nil _
      form.address_ne_nil] at hHead
    have hChar := form.address_chars 91
      (List.mem_of_head? hHead)
    exact absurd hChar (by decide +kernel)
  have hProtocol := form.protocol_length
  obtain ⟨text, host, port, hText, hFound⟩ :=
    found_of_parse hParse (isSet_schema_of_uriText hParse)
      hAt hBracket
      (by rw [form.takeWhile_bytes]; omega) hLength
  refine ⟨text, host, port, hText, ?_, ?_, hFound⟩
  · rw [← text.takeWhile_bytes, ← hText,
      form.takeWhile_bytes]
  · rw [← hFound.authority, ← text.authorityOf_bytes, hText]

end Network

------------------------------------------------------------
-- Plain URLs Are Agreed On
------------------------------------------------------------

namespace Network

variable {url : Bytes}
variable {elements : Elements}
variable {u : HttpParserUrl}

/- On a plain URL the two parsers agree. -/
theorem agrees_of_isPlain
    (hUri : proccessUri url = some elements)
    (hParse : httpParserParseUrl url = some u)
    (hPlain : IsPlain url) :
    Agrees url elements u := by
  obtain ⟨plain, rfl⟩ := hPlain
  have hElements : elements = plain.uriText.elements := by
    rw [← plain.uriText_bytes, proccessUri_text,
      Option.some.injEq] at hUri
    exact hUri.symm
  have hCut :
      hostAndPort plain.uriText.address =
        (plain.host, plain.port.getD []) :=
    plain.hostAndPort_address
  have hAt : (64 : UInt8) ∉ plain.address := fun hMem =>
    absurd (plain.address_chars 64 hMem) (by decide +kernel)
  rw [← plain.authorityOf_bytes] at hAt
  have hLength := plain.address_length.2
  change plain.address.length < 2 ^ 16 at hLength
  rw [← plain.authorityOf_bytes] at hLength
  rw [← plain.uriText_bytes] at hParse hAt hLength ⊢
  obtain ⟨text, host, port, hText, hScheme, hAuthority,
    hFound⟩ := found_of_uriText hParse hAt hLength
  rw [plain.uriText_bytes, plain.authorityOf_bytes]
    at hAuthority
  obtain ⟨rfl, rfl⟩ :
      plain.host = host ∧ plain.port = port :=
    hostPortText_inj plain.host_colon hFound.host_colon
      hAuthority
  subst hElements
  refine
    { addr := ?_, protocol := ?_, port := fun hSet => ?_
      defaultPort := fun hUnset hKnown => ?_ }
  · rw [hText, hFound.component_host, UriText.elements, hCut]
  · rw [hText, hFound.component_schema, hScheme]
    rfl
  · rw [hFound.isSet_port_iff] at hSet
    obtain ⟨digits, hDigits⟩ :=
      Option.ne_none_iff_exists'.mp hSet
    obtain ⟨-, hPort, hPlace⟩ :=
      plain.port_place digits hDigits
    have hFoundPort : Found text plain.host (some digits) u :=
      hDigits ▸ hFound
    have hLength := hFoundPort.length
    rw [hFoundPort.authority] at hLength
    have hShort : digits.length < 2 ^ 16 := by
      simp only [hostPortText, List.length_append,
        List.length_cons] at hLength
      omega
    have hStart :
        text.hostStart + plain.host.length + 1 < 2 ^ 16 := by
      rw [UrlText.hostStart, hScheme]
      exact hPlace
    rw [hText, hFoundPort.component_port_iff.mpr
      ⟨hShort, Or.inl hStart⟩]
    simp only [UriText.elements, hCut, hDigits,
      Option.getD_some, if_neg hPort.nonempty]
  · have hNone : plain.port = none := by
      by_contra hSome
      rw [hFound.isSet_port_iff.mpr hSome] at hUnset
      exact Bool.noConfusion hUnset
    simp only [UriText.elements, hCut, hNone, Option.getD_none,
      if_true]
    rfl

end Network

------------------------------------------------------------
-- Where They Agree the URL Is Plain
------------------------------------------------------------

namespace Network

/-
  A field of the port that is read from the scheme and its
  marks holds no digit.
-/
theorem port_place_of_inReach
    {text : UrlText}
    {host digits : Bytes}
    {u : HttpParserUrl}
    (hFound : Found text host (some digits) u)
    (hReach :
      InReach text.bytes (text.hostStart + host.length + 1)
        digits) :
    text.hostStart + host.length + 1 < 2 ^ 16 := by
  by_contra hFar
  have hPrefix := hReach.2.resolve_left hFar
  have hDigits := hFound.port_digits digits rfl
  have hLength := hFound.length
  have hStart := hFound.hostStart
  rw [hFound.authority] at hLength
  simp only [hostPortText, List.length_append,
    List.length_cons] at hLength
  cases hFirst : digits with
  | nil => exact hDigits.nonempty hFirst
  | cons digit others =>
      have hMarks : (ascii "://").length = 3 := by decide
      let place :=
        (text.hostStart + host.length + 1) % 2 ^ 16
      have hPlace :
          place < (text.scheme ++ ascii "://").length := by
        rw [hFirst, List.length_cons] at hLength
        rw [List.length_append, hMarks]
        change _ < text.hostStart
        simp only [place]
        omega
      obtain ⟨rest, hRest⟩ := hPrefix
      have hHead : text.bytes[place]? = some digit := by
        rw [← List.head?_drop]
        rw [← hRest, hFirst]
        rfl
      have hFront :
          digit ∈ text.scheme ++ ascii "://" := by
        rw [text.bytes_eq, ← List.append_assoc,
          List.getElem?_append_left hPlace] at hHead
        exact List.mem_of_getElem? hHead
      have hDigit := hDigits.chars digit (by simp [hFirst])
      rw [isDigit_iff] at hDigit
      rcases List.mem_append.mp hFront with
        hScheme | hMark
      · have hAlpha := text.scheme_chars digit hScheme
        simp only [isAlpha, UInt8.le_iff_toNat_le,
          Bool.or_eq_true, Bool.and_eq_true,
          decide_eq_true_eq, UInt8.reduceToNat] at hAlpha
        omega
      · have hMarkChar : digit = 58 ∨ digit = 47 := by
          simpa [ascii] using hMark
        rcases hMarkChar with rfl | rfl
        · exact absurd hDigit (by decide)
        · exact absurd hDigit (by decide)

/- An address whose host is the host of the authority is it. -/
theorem rest_eq_nil_of_addr
    {form : UriText}
    {host rest : Bytes}
    {port : Option Bytes}
    (hSplit : form.address ++ rest = hostPortText host port)
    (hRest : ∀ c ∈ rest.head?, isAddressChar c = false)
    (hDigits : ∀ text ∈ port, IsPort text)
    (hAddr : form.elements.addr = host) :
    rest = [] ∧
      ∀ text ∈ port,
        IsHost host ∧ form.elements.port = text := by
  rcases hostAndPort_cases form.address_chars with
    hWhole | ⟨front, digits, hHost, hPort, hAddress, hCut⟩
  · have hSame : form.address = host := by
      rw [← hAddr, UriText.elements, hWhole]
    rw [hSame] at hSplit
    have hBack := List.append_cancel_left hSplit
    cases port with
    | none => exact ⟨hBack, by simp⟩
    | some text =>
        have hColon := hRest 58 (by rw [hBack]; rfl)
        exact absurd hColon (by decide)
  · have hSame : front = host := by
      rw [← hAddr, UriText.elements, hCut]
    subst hSame
    rw [hAddress, List.append_assoc] at hSplit
    have hBack := List.append_cancel_left hSplit
    cases port with
    | none => simp at hBack
    | some text =>
        have hText : digits ++ rest = text :=
          (List.cons.inj hBack).2
        have hNone : rest = [] := by
          cases hFirst : rest with
          | nil => rfl
          | cons c others =>
              have hDigit := (hDigits text rfl).chars c
                (by simp [← hText, hFirst])
              have hNot := hRest c (by simp [hFirst])
              rw [isAddressChar_of_isDigit hDigit] at hNot
              exact Bool.noConfusion hNot
        refine ⟨hNone, ?_⟩
        intro other hOther
        cases hOther
        rw [hNone, List.append_nil] at hText
        refine ⟨hHost, ?_⟩
        simp only [UriText.elements, hCut,
          if_neg hPort.nonempty]
        exact hText

/- Nothing is skipped of a URL without a form feed. -/
theorem skipped_eq_nil_of_parse
    {skipped rest : Bytes}
    {u : HttpParserUrl}
    (hParse : httpParserParseUrl (skipped ++ rest) = some u)
    (hFeed : (12 : UInt8) ∉ skipped ++ rest)
    (hStart :
      boostLineBreaks.startsLine skipped.reverse rest = true) :
    skipped = [] := by
  by_contra hSkipped
  obtain ⟨c, hMem, hBreak⟩ :=
    exists_lineBreak_of_startsLine hStart hSkipped
  obtain ⟨scan, -, hLoop, -⟩ :=
    httpParserParseUrl_cases hParse
  have hNot := ne_lineBreak_of_loop hLoop c
    (List.mem_append_left _ hMem)
  have hOther : c ≠ 12 := by
    rintro rfl
    exact hFeed (List.mem_append_left _ hMem)
  simp [isLineBreak, hNot.1, hNot.2, hOther] at hBreak

/- A form is plain whose address is its whole authority. -/
theorem isPlain_of_uriText
    {form : UriText}
    {host : Bytes}
    {port : Option Bytes}
    (hAddress : form.address = hostPortText host port)
    (hColon : (58 : UInt8) ∉ host)
    (hPort :
      ∀ digits ∈ port,
        IsHost host ∧ IsPort digits ∧
          form.protocol.length + 3 + host.length + 1 < 2 ^ 16)
    (hLength : form.address.length < 2 ^ 16)
    (hRest :
      form.tail.takeWhile (fun c => c ≠ 47 && c ≠ 63) =
        []) :
    IsPlain form.bytes := by
  have hBytes :
      form.bytes =
        form.protocol ++ (ascii "://" ++
          (hostPortText host port ++ form.tail)) := by
    rw [← hAddress]
    rfl
  refine
    ⟨{ scheme := form.protocol
       host := host
       port := port
       tail := form.tail
       scheme_chars := form.protocol_chars
       scheme_length := form.protocol_length
       host_chars := fun c hMem => ⟨?_, ?_⟩
       port_place := hPort
       address_length :=
         hAddress ▸ ⟨form.address_length, hLength⟩
       tail_head := fun c hHead => ?_ }, hBytes⟩
  · apply form.address_chars c
    rw [hAddress]
    exact List.mem_append_left _ hMem
  · rintro rfl
    exact hColon hMem
  · by_contra hOther
    have hStop :
        c ∈ (form.tail.takeWhile
          fun c => c ≠ 47 && c ≠ 63).head? := by
      rw [List.head?_takeWhile, Option.mem_filter_iff]
      exact ⟨hHead, by simpa using hOther⟩
    rw [hRest] at hStop
    simp at hStop

/-
  Where the parsers agree the URL is plain, unless there is
  user information, a second line or an authority that 16
  bits do not count: then they may agree by chance.
-/
theorem isPlain_of_agrees
    {url : Bytes}
    {elements : Elements}
    {u : HttpParserUrl}
    (hUri : proccessUri url = some elements)
    (hParse : httpParserParseUrl url = some u)
    (hAt : (64 : UInt8) ∉ authorityOf url)
    (hFeed : (12 : UInt8) ∉ url)
    (hLength : (authorityOf url).length < 2 ^ 16)
    (hAgrees : Agrees url elements u) :
    IsPlain url := by
  obtain ⟨skipped, form, rfl, hStart, rfl⟩ :=
    uriText_of_proccessUri hUri
  obtain rfl := skipped_eq_nil_of_parse hParse hFeed hStart
  rw [List.nil_append] at *
  have hForm := form.authorityOf_bytes
  obtain ⟨text, host, port, hText, hScheme, hAuthority,
    hFound⟩ := found_of_uriText hParse hAt hLength
  rw [hForm] at hAuthority
  have hAddr : form.elements.addr = host := by
    rw [hAgrees.addr, hText, hFound.component_host]
  have hRestHead :
      ∀ c ∈ (form.tail.takeWhile
          fun c => c ≠ 47 && c ≠ 63).head?,
        isAddressChar c = false := by
    intro c hHead
    rw [List.head?_takeWhile, Option.mem_filter_iff] at hHead
    exact form.tail_head c hHead.1
  obtain ⟨hRest, hPorts⟩ := rest_eq_nil_of_addr hAuthority
    hRestHead hFound.port_digits hAddr
  rw [hRest, List.append_nil] at hAuthority hForm
  have hPlace :
      ∀ digits ∈ port,
        form.protocol.length + 3 + host.length + 1 < 2 ^ 16 := by
    intro digits hDigits
    cases hDigits
    have hSet : u.isSet .port = true :=
      hFound.isSet_port_iff.mpr (by simp)
    have hPort := hAgrees.port hSet
    rw [(hPorts digits rfl).2, hText] at hPort
    have hInReach :=
      hFound.component_port_iff.mp hPort.symm
    have hStart := port_place_of_inReach hFound hInReach
    rwa [UrlText.hostStart, hScheme] at hStart
  refine isPlain_of_uriText hAuthority hFound.host_colon
    (fun digits hDigits =>
      ⟨(hPorts digits hDigits).1,
        hFound.port_digits digits hDigits,
        hPlace digits hDigits⟩) ?_ hRest
  rw [← hForm]
  exact hLength

end Network

------------------------------------------------------------
-- The Two Parsers
------------------------------------------------------------

namespace Network

/-
  On a plain URL the two parsers agree.  They agree on no
  other one whose authority has no user information and is in
  reach of 16 bits and which is a single line.
-/
theorem agrees_iff_isPlain
    {url : Bytes}
    {elements : Elements}
    {u : HttpParserUrl}
    (hUri : proccessUri url = some elements)
    (hParse : httpParserParseUrl url = some u) :
    (IsPlain url → Agrees url elements u) ∧
      ((64 : UInt8) ∉ authorityOf url →
        (12 : UInt8) ∉ url →
          (authorityOf url).length < 2 ^ 16 →
            (Agrees url elements u ↔ IsPlain url)) :=
  ⟨agrees_of_isPlain hUri hParse,
    fun hAt hFeed hLength =>
      ⟨isPlain_of_agrees hUri hParse hAt hFeed hLength,
        agrees_of_isPlain hUri hParse⟩⟩

theorem isHost_hyphen : IsHost ([97, 45, 98] ++ 46 :: [99]) :=
  .dot ⟨by decide, by decide +kernel, by decide, by decide⟩
    (.label
      ⟨by decide, by decide +kernel, by decide, by decide⟩)

/- `http://a-b.c:81/`, in its parts. -/
def portText : PlainText where
  scheme := ascii "http"
  host := [97, 45, 98] ++ 46 :: [99]
  port := some [56, 49]
  tail := [47]
  scheme_chars := IsScheme.protocol_chars (Or.inl rfl)
  scheme_length := by decide
  host_chars := fun c hMem =>
    ⟨isHost_hyphen.isAddressChar hMem, by
      rintro rfl
      exact isHost_hyphen.not_colon hMem⟩
  port_place := by
    intro text hText
    cases hText
    exact ⟨isHost_hyphen, ⟨by decide, by decide +kernel⟩,
      by decide⟩
  address_length := by decide
  tail_head := by simp

theorem agrees_iff_isPlain_port :
    Agrees portText.bytes
      { addr := ascii "a-b.c"
        port := ascii "81"
        protocol := ascii "http"
        urn := ascii "/" }
      ((httpParserParseUrl portText.bytes).get
        (by decide +kernel)) := by
  have hUri :
      proccessUri portText.bytes =
        some
          { addr := ascii "a-b.c"
            port := ascii "81"
            protocol := ascii "http"
            urn := ascii "/" } := by
    decide +kernel
  exact (agrees_iff_isPlain hUri (Option.some_get _).symm).1
    ⟨portText, rfl⟩

/- With user information the connection goes elsewhere. -/
theorem parsers_disagree_userinfo :
    ∃ elements u,
      proccessUri (ascii "https://user@host/") =
          some elements ∧
        httpParserParseUrl (ascii "https://user@host/") =
            some u ∧
          elements.addr = ascii "user" ∧
            u.component (ascii "https://user@host/") .host =
              ascii "host" ∧
            ¬ Agrees (ascii "https://user@host/") elements
                u := by
  have hUri :
      (proccessUri (ascii "https://user@host/")).map
          (·.addr) =
        some (ascii "user") := by
    decide +kernel
  have hUrl :
      (httpParserParseUrl (ascii "https://user@host/")).map
          (fun u => u.component
            (ascii "https://user@host/") .host) =
        some (ascii "host") := by
    decide +kernel
  obtain ⟨elements, hElements, hAddr⟩ :=
    Option.map_eq_some_iff.mp hUri
  obtain ⟨u, hParse, hHost⟩ := Option.map_eq_some_iff.mp hUrl
  refine ⟨elements, u, hElements, hParse, hAddr, hHost, ?_⟩
  intro hAgrees
  have hSame := hAgrees.addr
  rw [hAddr, hHost] at hSame
  exact absurd hSame (by decide)

end Network
