import XMLHttpRequest.Base.Bytes

/-
  The header names that have a token (http2.cpp).

  Key definitions include:
    * `Network.HeaderToken`
    * `Network.tokenRows`
    * `Network.lookupToken`

  Key theorems include:
    * `Network.lookupToken_eq_some_iff`
-/

------------------------------------------------------------
-- Tokens
------------------------------------------------------------

namespace Network

/- The `HD_` constants; `HD__` stands for pseudo headers. -/
inductive HeaderToken
  | pseudoAuthority
  | pseudoHost
  | pseudoMethod
  | pseudoPath
  | pseudoProtocol
  | pseudoScheme
  | pseudoStatus
  | acceptEncoding
  | acceptLanguage
  | altSvc
  | cacheControl
  | connection
  | contentLength
  | contentType
  | cookie
  | date
  | earlyData
  | expect
  | forwarded
  | host
  | http2Settings
  | ifModifiedSince
  | keepAlive
  | link
  | location
  | proxyConnection
  | secWebsocketAccept
  | secWebsocketKey
  | server
  | te
  | trailer
  | transferEncoding
  | upgrade
  | userAgent
  | via
  | xForwardedFor
  | xForwardedProto
  deriving DecidableEq, Repr

/- One comparison of `lookup_token`, by the last character. -/
structure TokenRow where
  nameLength : Nat
  last : Char
  initial : String
  token : HeaderToken

/- The comparisons of `lookup_token`, in their order. -/
def tokenRows : List TokenRow :=
  [⟨2, 'e', "t", .te⟩,
    ⟨3, 'a', "vi", .via⟩,
    ⟨4, 'e', "dat", .date⟩,
    ⟨4, 'k', "lin", .link⟩,
    ⟨4, 't', "hos", .host⟩,
    ⟨5, 'h', ":pat", .pseudoPath⟩,
    ⟨5, 't', ":hos", .pseudoHost⟩,
    ⟨6, 'e', "cooki", .cookie⟩,
    ⟨6, 'r', "serve", .server⟩,
    ⟨6, 't', "expec", .expect⟩,
    ⟨7, 'c', "alt-sv", .altSvc⟩,
    ⟨7, 'd', ":metho", .pseudoMethod⟩,
    ⟨7, 'e', ":schem", .pseudoScheme⟩,
    ⟨7, 'e', "upgrad", .upgrade⟩,
    ⟨7, 'r', "traile", .trailer⟩,
    ⟨7, 's', ":statu", .pseudoStatus⟩,
    ⟨8, 'n', "locatio", .location⟩,
    ⟨9, 'd', "forwarde", .forwarded⟩,
    ⟨9, 'l', ":protoco", .pseudoProtocol⟩,
    ⟨10, 'a', "early-dat", .earlyData⟩,
    ⟨10, 'e', "keep-aliv", .keepAlive⟩,
    ⟨10, 'n', "connectio", .connection⟩,
    ⟨10, 't', "user-agen", .userAgent⟩,
    ⟨10, 'y', ":authorit", .pseudoAuthority⟩,
    ⟨12, 'e', "content-typ", .contentType⟩,
    ⟨13, 'l', "cache-contro", .cacheControl⟩,
    ⟨14, 'h', "content-lengt", .contentLength⟩,
    ⟨14, 's', "http2-setting", .http2Settings⟩,
    ⟨15, 'e', "accept-languag", .acceptLanguage⟩,
    ⟨15, 'g', "accept-encodin", .acceptEncoding⟩,
    ⟨15, 'r', "x-forwarded-fo", .xForwardedFor⟩,
    ⟨16, 'n', "proxy-connectio", .proxyConnection⟩,
    ⟨17, 'e', "if-modified-sinc", .ifModifiedSince⟩,
    ⟨17, 'g', "transfer-encodin", .transferEncoding⟩,
    ⟨17, 'o', "x-forwarded-prot", .xForwardedProto⟩,
    ⟨17, 'y', "sec-websocket-ke", .secWebsocketKey⟩,
    ⟨20, 't', "sec-websocket-accep", .secWebsocketAccept⟩]

/- The name under which a token is looked up. -/
def HeaderToken.name : HeaderToken → Bytes
  | .pseudoAuthority => ascii ":authority"
  | .pseudoHost => ascii ":host"
  | .pseudoMethod => ascii ":method"
  | .pseudoPath => ascii ":path"
  | .pseudoProtocol => ascii ":protocol"
  | .pseudoScheme => ascii ":scheme"
  | .pseudoStatus => ascii ":status"
  | .acceptEncoding => ascii "accept-encoding"
  | .acceptLanguage => ascii "accept-language"
  | .altSvc => ascii "alt-svc"
  | .cacheControl => ascii "cache-control"
  | .connection => ascii "connection"
  | .contentLength => ascii "content-length"
  | .contentType => ascii "content-type"
  | .cookie => ascii "cookie"
  | .date => ascii "date"
  | .earlyData => ascii "early-data"
  | .expect => ascii "expect"
  | .forwarded => ascii "forwarded"
  | .host => ascii "host"
  | .http2Settings => ascii "http2-settings"
  | .ifModifiedSince => ascii "if-modified-since"
  | .keepAlive => ascii "keep-alive"
  | .link => ascii "link"
  | .location => ascii "location"
  | .proxyConnection => ascii "proxy-connection"
  | .secWebsocketAccept => ascii "sec-websocket-accept"
  | .secWebsocketKey => ascii "sec-websocket-key"
  | .server => ascii "server"
  | .te => ascii "te"
  | .trailer => ascii "trailer"
  | .transferEncoding => ascii "transfer-encoding"
  | .upgrade => ascii "upgrade"
  | .userAgent => ascii "user-agent"
  | .via => ascii "via"
  | .xForwardedFor => ascii "x-forwarded-for"
  | .xForwardedProto => ascii "x-forwarded-proto"

end Network

------------------------------------------------------------
-- Token Lookup
------------------------------------------------------------

namespace Network

/- `switch (namelen)`, then `switch (name[namelen - 1])`. -/
def TokenRow.accepts
    (row : TokenRow)
    (name : Bytes) : Bool :=
  name.length = row.nameLength &&
    name[row.nameLength - 1]? =
      some (UInt8.ofNat row.last.toNat) &&
    ascii row.initial = name.take (row.nameLength - 1)

/- `lookup_token` -/
def lookupToken (name : Bytes) : Option HeaderToken :=
  (tokenRows.find? (·.accepts name)).map (·.token)

/- The rows spell the names of their tokens. -/
theorem tokenRows_spell :
    ∀ row ∈ tokenRows,
      row.token.name =
          ascii row.initial ++
            [UInt8.ofNat row.last.toNat] ∧
        (ascii row.initial).length + 1 =
          row.nameLength := by
  decide +kernel

/- Every token is found under its name. -/
theorem lookupToken_name (token : HeaderToken) :
    lookupToken token.name = some token := by
  cases token <;> decide +kernel

theorem TokenRow.accepts_iff
    {row : TokenRow}
    (hRow : row ∈ tokenRows)
    (name : Bytes) :
    row.accepts name = true ↔ name = row.token.name := by
  rcases tokenRows_spell row hRow with ⟨hName, hLength⟩
  rw [hName]
  constructor
  · intro hAccepts
    simp only [accepts, Bool.and_eq_true,
      decide_eq_true_eq] at hAccepts
    rcases hAccepts with ⟨⟨hSize, hLast⟩, hInitial⟩
    have hPos : row.nameLength - 1 < name.length := by omega
    have hSplit :=
      List.take_append_getElem (l := name) hPos
    rw [List.getElem?_eq_getElem hPos,
      Option.some.injEq] at hLast
    rw [hInitial, ← hLast, hSplit,
      List.take_of_length_le (by omega)]
  · rintro rfl
    simp [accepts, ← hLength]

/- A token is returned for its own name and no other. -/
theorem lookupToken_eq_some_iff
    (name : Bytes)
    (token : HeaderToken) :
    lookupToken name = some token ↔ name = token.name := by
  unfold lookupToken
  rw [Option.map_eq_some_iff]
  constructor
  · rintro ⟨row, hFind, hToken⟩
    have hAccepts : row.accepts name = true := by
      simpa using List.find?_some hFind
    rw [← hToken]
    exact (TokenRow.accepts_iff
      (List.mem_of_find?_eq_some hFind) name).mp hAccepts
  · rintro rfl
    exact Option.map_eq_some_iff.mp (lookupToken_name token)

end Network
