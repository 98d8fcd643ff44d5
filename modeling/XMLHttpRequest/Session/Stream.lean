import XMLHttpRequest.Http.Message
import XMLHttpRequest.Library.KeyedStore

/-
  Streams, the frames that nghttp2 reports and the part of a
  session that its callbacks read and write
  (sessionstream.cpp, the stream members of
  abstractsession.cpp).

  Key definitions include:
    * `Network.Stream`
    * `Network.Frame`
    * `Network.Callback`
    * `Network.CallbackState`
-/

------------------------------------------------------------
-- Streams
------------------------------------------------------------

namespace Network

/- nghttp2's stream identifiers are 31-bit numbers. -/
abbrev StreamId := Nat

inductive StreamState
  | idle
  | reservedLocal
  | reservedRemote
  | «open»
  | halfClosedLocal
  | halfClosedRemote
  | closed
  deriving DecidableEq, Repr

structure Stream where
  rq : Request := {}
  rp : Response := {}
  streamId : StreamId
  statusCode : Nat := 0
  state : StreamState := .idle
  deriving DecidableEq

/- `Stream(id, nghttp2_session_find_stream(..))` -/
def Stream.create (id : StreamId) : Stream :=
  { streamId := id }

/- `status() / 100 == 1` -/
def Stream.expectFinalResponse (strm : Stream) : Bool :=
  strm.statusCode / 100 = 1

end Network

------------------------------------------------------------
-- Frames and Callbacks
------------------------------------------------------------

namespace Network

/- `nghttp2_frame_type`; `other` is an extension frame. -/
inductive FrameType
  | data
  | headers
  | priority
  | rstStream
  | settings
  | pushPromise
  | ping
  | goaway
  | windowUpdate
  | continuation
  | altsvc
  | origin
  | other
  deriving DecidableEq, Repr

/- `nghttp2_headers_category` -/
inductive HeadersCategory
  | request
  | response
  | pushResponse
  | headers
  deriving DecidableEq, Repr

/-
  The members of `nghttp2_frame` that the callbacks read:
  `endStream` is a bit of `hd.flags`, `cat` and `nva` belong
  to HEADERS frames, `promisedStreamId` to PUSH_PROMISE
  frames.
-/
structure Frame where
  streamId : StreamId
  type : FrameType
  endStream : Bool := false
  cat : HeadersCategory := .request
  nva : List (Bytes × Bytes) := []
  promisedStreamId : StreamId := 0
  deriving DecidableEq, Repr

/-
  A callback that nghttp2 makes.  `noIndex` is the bit
  NGHTTP2_NV_FLAG_NO_INDEX of a field's flags.
-/
inductive Callback
  | beginHeaders (frame : Frame)
  | header
      (frame : Frame)
      (name value : Bytes)
      (noIndex : Bool)
  | frameRecv (frame : Frame)
  | dataChunkRecv (id : StreamId) (data : Bytes)
  | streamClose (id : StreamId)
  | beforeFrameSend (frame : Frame)
  deriving DecidableEq, Repr

end Network

------------------------------------------------------------
-- Callback State
------------------------------------------------------------

namespace Network

/- A function object of the user; `none` is an empty one. -/
abbrev UserFunction := Option Nat

/- The closures installed for state changes. -/
inductive StateChangeCallback
  /- by `XMLHttpRequest::initCallbacks` -/
  | initial
  /- by `XMLHttpRequest::setOnStateChangedCallback` -/
  | wrapper (cb : UserFunction)
  deriving DecidableEq, Repr

/- The closure of `XMLHttpRequest::setOnReadyCallback`. -/
structure ReadyCallback where
  cb : UserFunction
  deriving DecidableEq, Repr

/-
  An invocation of an installed closure.  `id` names the
  stream whose close is reported; it is not an argument.
-/
inductive Call
  | stateChange
      (closure : StateChangeCallback)
      (state : ReadyState)
  | ready
      (closure : ReadyCallback)
      (id : StreamId)
      (rq : Request)
      (rp : Response)
  deriving DecidableEq

/- The call invokes the closure of the ready callback. -/
def Call.isReady : Call → Bool
  | .ready _ _ _ _ => true
  | .stateChange _ _ => false

/- The members of `AbstractSession::Impl` callbacks use. -/
structure CallbackState where
  onReadyCb : Option ReadyCallback := none
  onReadyStateChange : Option StateChangeCallback := none
  streams : KeyedStore StreamId Stream := ∅
  overrideMimeType : Bytes := []

namespace CallbackState

variable (s : CallbackState)

/- `findStream` -/
def findStream (id : StreamId) : Option Stream :=
  s.streams.lookup id

/- `addStream` -/
def addStream (strm : Stream) : CallbackState :=
  { s with
    streams :=
      KeyedStore.tryEmplace strm.streamId strm s.streams }

/- A change made through a stream's shared pointer. -/
def changeStream
    (id : StreamId)
    (change : Stream → Stream) : CallbackState :=
  { s with streams := KeyedStore.modify id change s.streams }

/- `removeStream` -/
def removeStream (id : StreamId) : CallbackState :=
  { s with streams := s.streams.erase id }

/- Invoke the closure of `getOnStateChangeCallback`, if set. -/
def callStateChange (state : ReadyState) : List Call :=
  match s.onReadyStateChange with
  | none => []
  | some closure => [.stateChange closure state]

/- Invoke the closure of `getOnReadyCallback`, if set. -/
def callReady (id : StreamId) (strm : Stream) : List Call :=
  match s.onReadyCb with
  | none => []
  | some closure => [.ready closure id strm.rq strm.rp]

end CallbackState

end Network
