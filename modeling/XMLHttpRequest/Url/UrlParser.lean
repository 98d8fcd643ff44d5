import XMLHttpRequest.Base.Bytes
import Mathlib.Logic.Function.Basic

/-
  The URL parser that `submit` uses (third-party/url-parser,
  built without HTTP_PARSER_STRICT).

  Offsets and lengths are 16-bit numbers, as in
  `http_parser_url`; a field whose bit is not in `field_set`
  is `none`.

  Key definitions include:
    * `Network.parseUrlChar`
    * `Network.httpParseHost`
    * `Network.httpParserParseUrl`
    * `Network.HttpParserUrl.component`
-/

------------------------------------------------------------
-- Character Classes
------------------------------------------------------------

namespace Network

/- `IS_ALPHA` -/
def isAlpha (c : UInt8) : Bool :=
  (65 ≤ c && c ≤ 90) || (97 ≤ c && c ≤ 122)

/- `IS_ALPHANUM` -/
def isAlphaNum (c : UInt8) : Bool :=
  isAlpha c || isDigit c

/- `IS_HEX` -/
def isHex (c : UInt8) : Bool :=
  isDigit c || (65 ≤ c && c ≤ 70) || (97 ≤ c && c ≤ 102)

/- `IS_MARK` -/
def isMark (c : UInt8) : Bool :=
  (ascii "-_.!~*'()").contains c

/- `IS_USERINFO_CHAR` -/
def isUserinfoChar (c : UInt8) : Bool :=
  isAlphaNum c || isMark c ||
    (ascii "%;:&=+$,").contains c

/-
  `IS_URL_CHAR`: the bits of `normal_url_char` (tab, form
  feed and what is visible except `#` and `?`) and every
  byte with its high bit set.
-/
def isUrlChar (c : UInt8) : Bool :=
  c = 9 || c = 12 ||
    (33 ≤ c && c ≤ 126 && c ≠ 35 && c ≠ 63) || 128 ≤ c

/- `IS_HOST_CHAR` -/
def isHostChar (c : UInt8) : Bool :=
  isAlphaNum c || (ascii ".-_").contains c

/- A character of an IPv6 zone identifier. -/
def isZoneChar (c : UInt8) : Bool :=
  isAlphaNum c || (ascii "%.-_~").contains c

end Network

------------------------------------------------------------
-- States
------------------------------------------------------------

namespace Network

/- The values of `enum state` that a URL can reach. -/
inductive UrlState
  | dead
  | spacesBeforeUrl
  | schema
  | schemaSlash
  | schemaSlashSlash
  | serverStart
  | server
  | serverWithAt
  | path
  | queryStringStart
  | queryString
  | fragmentStart
  | fragment
  deriving DecidableEq, Repr

/- `enum http_host_state` -/
inductive HostState
  | dead
  | userinfoStart
  | userinfo
  | hostStart
  | hostV6Start
  | host
  | hostV6
  | hostV6End
  | hostV6ZoneStart
  | hostV6Zone
  | hostPortStart
  | hostPort
  deriving DecidableEq, Repr

/- The three states in the server part share their branches. -/
def parseServerChar (ch : UInt8) : UrlState :=
  if ch = 47 then .path
  else if ch = 63 then .queryStringStart
  else if ch = 64 then .serverWithAt
  else if isUserinfoChar ch || ch = 91 || ch = 93 then
    .server
  else .dead

/- `parse_url_char` -/
def parseUrlChar (s : UrlState) (ch : UInt8) : UrlState :=
  if ch = 32 || ch = 13 || ch = 10 then .dead
  else
    match s with
    | .spacesBeforeUrl =>
        if ch = 47 || ch = 42 then .path
        else if isAlpha ch then .schema
        else .dead
    | .schema =>
        if isAlpha ch then .schema
        else if ch = 58 then .schemaSlash
        else .dead
    | .schemaSlash =>
        if ch = 47 then .schemaSlashSlash else .dead
    | .schemaSlashSlash =>
        if ch = 47 then .serverStart else .dead
    | .serverWithAt =>
        if ch = 64 then .dead else parseServerChar ch
    | .serverStart => parseServerChar ch
    | .server => parseServerChar ch
    | .path =>
        if isUrlChar ch then .path
        else if ch = 63 then .queryStringStart
        else if ch = 35 then .fragmentStart
        else .dead
    | .queryStringStart | .queryString =>
        if isUrlChar ch then .queryString
        -- allow extra '?' in query string
        else if ch = 63 then .queryString
        else if ch = 35 then .fragmentStart
        else .dead
    | .fragmentStart =>
        if isUrlChar ch then .fragment
        else if ch = 63 then .fragment
        else if ch = 35 then .fragmentStart
        else .dead
    | .fragment =>
        if isUrlChar ch then .fragment
        else if ch = 63 || ch = 35 then .fragment
        else .dead
    | .dead => .dead

/- `http_parse_host_char` -/
def httpParseHostChar
    (s : HostState)
    (ch : UInt8) : HostState :=
  match s with
  | .userinfo | .userinfoStart =>
      if ch = 64 then .hostStart
      else if isUserinfoChar ch then .userinfo
      else .dead
  | .hostStart =>
      if ch = 91 then .hostV6Start
      else if isHostChar ch then .host
      else .dead
  | .host =>
      if isHostChar ch then .host
      else if ch = 58 then .hostPortStart
      else .dead
  | .hostV6End =>
      if ch = 58 then .hostPortStart else .dead
  | .hostV6 =>
      if ch = 93 then .hostV6End
      else if isHex ch || ch = 58 || ch = 46 then .hostV6
      else if ch = 37 then .hostV6ZoneStart
      else .dead
  | .hostV6Start =>
      if isHex ch || ch = 58 || ch = 46 then .hostV6
      else .dead
  | .hostV6Zone =>
      if ch = 93 then .hostV6End
      else if isZoneChar ch then .hostV6Zone
      else .dead
  | .hostV6ZoneStart =>
      if isZoneChar ch then .hostV6Zone else .dead
  | .hostPort | .hostPortStart =>
      if isDigit ch then .hostPort else .dead
  | .dead => .dead

end Network

------------------------------------------------------------
-- Fields
------------------------------------------------------------

namespace Network

/- `enum http_parser_url_fields` -/
inductive UrlField
  | schema
  | host
  | port
  | path
  | query
  | fragment
  | userinfo
  deriving DecidableEq, Repr

/- An element of `field_data`. -/
structure FieldData where
  off : Nat
  len : Nat
  deriving DecidableEq, Repr

/- A field that starts at index `p`. -/
def FieldData.start (p : Nat) (len : Nat) : FieldData :=
  ⟨toUint16 p, len⟩

/- `len++` -/
def FieldData.grow (field : FieldData) : FieldData :=
  { field with len := toUint16 (field.len + 1) }

structure HttpParserUrl where
  port : Nat := 0
  fieldData : UrlField → Option FieldData := fun _ => none

namespace HttpParserUrl

variable (u : HttpParserUrl)

/- The bit of a field in `field_set`. -/
def isSet (field : UrlField) : Bool :=
  (u.fieldData field).isSome

def setField
    (field : UrlField)
    (data : FieldData) : HttpParserUrl :=
  { u with
    fieldData :=
      Function.update u.fieldData field (some data) }

def changeField
    (field : UrlField)
    (change : FieldData → FieldData) : HttpParserUrl :=
  { u with
    fieldData :=
      Function.update u.fieldData field
        ((u.fieldData field).map change) }

/- `copy_url_component` into an empty string -/
def component (url : Bytes) (field : UrlField) : Bytes :=
  match u.fieldData field with
  | some data => (url.drop data.off).take data.len
  | none => []

end HttpParserUrl

end Network

------------------------------------------------------------
-- Host
------------------------------------------------------------

namespace Network

/- The locals of `http_parse_host`. -/
structure HostScan where
  s : HostState
  u : HttpParserUrl

/- Start a field on a change of state, else let it grow. -/
def HostScan.extend
    (scan : HostScan)
    (newS : HostState)
    (field : UrlField)
    (p : Nat) : HttpParserUrl :=
  if scan.s = newS then
    scan.u.changeField field FieldData.grow
  else scan.u.setField field (FieldData.start p 1)

/-
  The length of the host is zero before the scan and counts
  on when the offset moves.
-/
def HostScan.extendHost
    (scan : HostScan)
    (newS : HostState)
    (p : Nat) : HttpParserUrl :=
  scan.u.changeField .host fun data =>
    if scan.s = newS then data.grow
    else { data.grow with off := toUint16 p }

/- One round of the loop of `http_parse_host`. -/
def HostScan.char
    (scan : HostScan)
    (p : Nat)
    (ch : UInt8) : Option HostScan :=
  let newS := httpParseHostChar scan.s ch
  match newS with
  | .dead => none
  | .host | .hostV6 =>
      some ⟨newS, scan.extendHost newS p⟩
  | .hostV6ZoneStart | .hostV6Zone =>
      some ⟨newS, scan.u.changeField .host FieldData.grow⟩
  | .hostPort => some ⟨newS, scan.extend newS .port p⟩
  | .userinfo => some ⟨newS, scan.extend newS .userinfo p⟩
  | _ => some ⟨newS, scan.u⟩

def HostScan.loop
    (scan : HostScan)
    (p : Nat) : Bytes → Option HostScan
  | [] => some scan
  | ch :: buf =>
      (scan.char p ch).bind fun next =>
        next.loop (p + 1) buf

/- The states in which a host may end. -/
def HostState.accepting : HostState → Bool
  | .host | .hostV6End | .hostPort => true
  | _ => false

/- `http_parse_host`; `none` is a nonzero result. -/
def httpParseHost
    (buf : Bytes)
    (u : HttpParserUrl)
    (foundAt : Bool) : Option HttpParserUrl :=
  match u.fieldData .host with
  | none => some u
  | some data =>
      let start : HostScan :=
        { s := if foundAt then .userinfoStart else .hostStart
          u := u.setField .host ⟨data.off, 0⟩ }
      (start.loop data.off
          ((buf.drop data.off).take data.len)).bind
        fun scan =>
          if scan.s.accepting then some scan.u else none

end Network

------------------------------------------------------------
-- URLs
------------------------------------------------------------

namespace Network

/- The locals of `http_parser_parse_url`. -/
structure UrlScan where
  s : UrlState
  oldUf : Option UrlField := none
  foundAt : Bool := false
  u : HttpParserUrl := {}

/- The field to which a byte belongs, if it is no delimiter. -/
def UrlState.field : UrlState → Option UrlField
  | .schema => some .schema
  | .server => some .host
  | .serverWithAt => some .host
  | .path => some .path
  | .queryString => some .query
  | .fragment => some .fragment
  | _ => none

/- One round of the loop of `http_parser_parse_url`. -/
def UrlScan.char
    (scan : UrlScan)
    (p : Nat)
    (ch : UInt8) : Option UrlScan :=
  let s := parseUrlChar scan.s ch
  match s, s.field with
  | .dead, _ => none
  | _, none => some { scan with s := s }
  | _, some uf =>
      some
        { s := s
          oldUf := some uf
          foundAt := scan.foundAt || s = .serverWithAt
          u :=
            if scan.oldUf = some uf then
              scan.u.changeField uf FieldData.grow
            else scan.u.setField uf (FieldData.start p 1) }

def UrlScan.loop
    (scan : UrlScan)
    (p : Nat) : Bytes → Option UrlScan
  | [] => some scan
  | ch :: buf =>
      (scan.char p ch).bind fun next =>
        next.loop (p + 1) buf

/-
  `strtoul` in base ten.  A value that does not fit an
  `unsigned long` is above every bound it is compared with.
-/
def strtoul (s : Bytes) : Int :=
  let s := s.dropWhile isSpace
  let (sign, s) : Int × Bytes :=
    match s with
    | 45 :: s => (-1, s)
    | 43 :: s => (1, s)
    | s => (1, s)
  let magnitude : Nat :=
    (s.takeWhile isDigit).foldl
      (fun n c => n * 10 + (c.toNat - 48)) 0
  if magnitude < 2 ^ 64 then
    (sign * magnitude) % 2 ^ 64
  else 2 ^ 64 - 1

/-
  `http_parser_parse_url` with `is_connect` zero, as every
  caller has it; `none` is a nonzero result.
-/
def httpParserParseUrl (buf : Bytes) : Option HttpParserUrl :=
  let start : UrlScan := { s := .spacesBeforeUrl }
  (start.loop 0 buf).bind fun scan =>
    -- host must be present if there is a schema
    if scan.u.isSet .schema && ! scan.u.isSet .host then none
    else
      (httpParseHost buf scan.u scan.foundAt).bind fun u =>
        match u.fieldData .port with
        | none => some u
        | some data =>
            let v := strtoul (buf.drop data.off)
            if v > 0xffff then none
            else some { u with port := v.toNat }

end Network
