import XMLHttpRequest.Base.SessionUtil
import XMLHttpRequest.Http.HeaderToken
import XMLHttpRequest.Library.OrderedMultimap

/-
  Header fields, requests, responses and the ready states
  (httpheader.cpp, httprequest.cpp, httpresponse.cpp,
  xmlhttprequeststate.h).

  Key definitions include:
    * `Network.Header`
    * `Network.Request`
    * `Network.Response`
    * `Network.ReadyState`
-/

------------------------------------------------------------
-- Header Fields
------------------------------------------------------------

namespace Network

structure HeaderValue where
  value : Bytes := []
  sensitive : Bool := false
  deriving DecidableEq, Repr

/- `std::multimap<std::string, HeaderValue>` -/
abbrev Header := OrderedMultimap Bytes HeaderValue

/- The value of the first field with a name, else `""`. -/
def Header.find
    (header : Header)
    (name : Bytes) : Bytes :=
  match List.find? (·.1 = name) header.entries with
  | some (_, field) => field.value
  | none => []

/- Put fields in, each behind those with its name. -/
def Header.addAll
    (header : Header)
    (fields : List (Bytes × HeaderValue)) : Header :=
  fields.foldl
    (fun header field => header.emplace field.1 field.2)
    header

theorem Header.addAll_append
    (header : Header)
    (first second : List (Bytes × HeaderValue)) :
    header.addAll (first ++ second) =
      (header.addAll first).addAll second :=
  List.foldl_append

end Network

------------------------------------------------------------
-- Requests
------------------------------------------------------------

namespace Network

structure Request where
  scheme_ : Bytes := []
  host_ : Bytes := []
  method_ : Bytes := []
  header_ : Header := OrderedMultimap.empty
  deriving DecidableEq

namespace Request

/-
  The three setters carry a `\todo` and have no effect; the
  getters fill the members from the header fields instead.
-/
def assignScheme (rq : Request) (_value : Bytes) : Request :=
  rq

def assignHost (rq : Request) (_value : Bytes) : Request :=
  rq

def assignMethod (rq : Request) (_value : Bytes) : Request :=
  rq

/- `Request::host() const`, which fills the mutable member. -/
def host (rq : Request) : Bytes × Request :=
  let filled :=
    if rq.host_ = [] then
      { rq with host_ := rq.header_.find (ascii "host") }
    else rq
  (filled.host_, filled)

/- `Request::scheme() const` -/
def scheme (rq : Request) : Bytes × Request :=
  let filled :=
    if rq.scheme_ = [] then
      { rq with scheme_ := rq.header_.find (ascii ":scheme") }
    else rq
  (filled.scheme_, filled)

/- `Request::method() const` -/
def method (rq : Request) : Bytes × Request :=
  let filled :=
    if rq.method_ = [] then
      { rq with method_ := rq.header_.find (ascii ":method") }
    else rq
  (filled.method_, filled)

/- `Request::header(name, value)` -/
def addHeader
    (rq : Request)
    (name : Bytes)
    (value : HeaderValue) : Request :=
  { rq with header_ := rq.header_.emplace name value }

end Request

end Network

------------------------------------------------------------
-- Responses
------------------------------------------------------------

namespace Network

structure Response where
  contentLength_ : Nat := 0
  statusCode_ : Int := -1
  header_ : Header := OrderedMultimap.empty
  data_ : List Bytes := []
  deriving DecidableEq

namespace Response

/- `statusCode(const int)`, given an `int64_t`. -/
def setStatusCode (rp : Response) (sc : Int) : Response :=
  { rp with statusCode_ := toInt32 sc }

/- `contentLength(const int64_t)`, stored in a `size_t`. -/
def setContentLength (rp : Response) (n : Int) : Response :=
  { rp with contentLength_ := sizeT n }

/- `header().emplace(name, value)` -/
def addHeader
    (rp : Response)
    (name : Bytes)
    (value : HeaderValue) : Response :=
  { rp with header_ := rp.header_.emplace name value }

/- `data(data, len)` -/
def addData (rp : Response) (chunk : Bytes) : Response :=
  { rp with data_ := rp.data_ ++ [chunk] }

end Response

end Network

------------------------------------------------------------
-- Ready States
------------------------------------------------------------

namespace Network

inductive ReadyState
  | unsent
  | opened
  | headersReceived
  | loading
  | done
  deriving DecidableEq, Repr

/- The `uint8_t` underlying a state. -/
def ReadyState.rank : ReadyState → Nat
  | .unsent => 0
  | .opened => 1
  | .headersReceived => 2
  | .loading => 3
  | .done => 4

instance : LE ReadyState :=
  ⟨fun left right => left.rank ≤ right.rank⟩

instance (left right : ReadyState) :
    Decidable (left ≤ right) :=
  inferInstanceAs (Decidable (left.rank ≤ right.rank))

theorem ReadyState.le_refl (state : ReadyState) :
    state ≤ state :=
  Nat.le_refl state.rank

instance :
    Trans (LE.le : ReadyState → ReadyState → Prop)
      LE.le LE.le :=
  ⟨fun hFirst hSecond => Nat.le_trans hFirst hSecond⟩

end Network
