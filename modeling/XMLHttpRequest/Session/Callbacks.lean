import XMLHttpRequest.Session.Stream

/-
  The callbacks that a session registers with nghttp2
  (sessioncallbacks.cpp).

  Each returns the callback state it leaves together with the
  closures it invokes, in order.  None of them looks at what a
  closure did.

  Key definitions include:
    * `Network.CallbackState.onBeginHeadersCallback`
    * `Network.CallbackState.onHeaderCallback`
    * `Network.CallbackState.onFrameRecvCallback`
    * `Network.CallbackState.onDataChunkRecvCallback`
    * `Network.CallbackState.onStreamCloseCallback`
    * `Network.CallbackState.beforeFrameSendCallback`
    * `Network.CallbackState.apply`
-/

------------------------------------------------------------
-- Fields of a Response and of a Pushed Request
------------------------------------------------------------

namespace Network

/-
  What a content-type field becomes under an override: a
  field made of the two sides of the first `;`, or nothing.
-/
def Response.addOverridenType
    (rp : Response)
    (type : Bytes)
    (noIndex : Bool) : Response :=
  if type.contains 59 then
    let name := type.takeWhile (· ≠ 59)
    let value := (type.dropWhile (· ≠ 59)).tail
    rp.addHeader name
      ⟨value.filter (! isSpace ·), noIndex⟩
  else rp

/- The token dispatch for a field of a HEADERS frame. -/
def Response.onHeader
    (rp : Response)
    (overrideMimeType : Bytes)
    (name value : Bytes)
    (noIndex : Bool) : Response :=
  match lookupToken name with
  | some .pseudoStatus =>
      (rp.setStatusCode (parseUint value)).addHeader name
        ⟨value, noIndex⟩
  | some .contentLength =>
      (rp.setContentLength (parseUint value)).addHeader name
        ⟨value, noIndex⟩
  | some .contentType =>
      if overrideMimeType ≠ [] then
        rp.addOverridenType overrideMimeType noIndex
      else
        rp.addHeader name ⟨value, noIndex⟩
  | _ => rp.addHeader name ⟨value, noIndex⟩

/- The token dispatch for a field of a PUSH_PROMISE frame. -/
def Request.onHeader
    (rq : Request)
    (name value : Bytes)
    (noIndex : Bool) : Request :=
  match lookupToken name with
  | some .pseudoMethod => rq.assignMethod value
  | some .pseudoScheme => rq.assignScheme value
  | some .pseudoPath => rq
  | some .pseudoAuthority => rq.assignHost value
  | some .host =>
      let (host, rq) := rq.host
      let rq := if host = [] then rq.assignHost value else rq
      rq.addHeader name ⟨value, noIndex⟩
  | _ => rq.addHeader name ⟨value, noIndex⟩

end Network

------------------------------------------------------------
-- Receiving
------------------------------------------------------------

namespace Network

namespace CallbackState

variable (s : CallbackState)

/- A field of a HEADERS frame, once its stream is found. -/
def onResponseHeader
    (frame : Frame)
    (name value : Bytes)
    (noIndex : Bool) : CallbackState :=
  -- ignore trailers
  if frame.cat = .headers then s
  else
    s.changeStream frame.streamId fun strm =>
      { strm with
        rp := strm.rp.onHeader s.overrideMimeType
          name value noIndex }

/- A field of a PUSH_PROMISE frame. -/
def onPromiseHeader
    (frame : Frame)
    (name value : Bytes)
    (noIndex : Bool) : CallbackState :=
  s.changeStream frame.promisedStreamId fun strm =>
    { strm with
      state :=
        if strm.state = .idle then .reservedRemote
        else strm.state
      rq := strm.rq.onHeader name value noIndex }

def onBeginHeadersCallback (frame : Frame) : CallbackState :=
  if frame.type ≠ .pushPromise then
    s.addStream (Stream.create frame.streamId)
  else
    s.addStream (Stream.create frame.promisedStreamId)

def onHeaderCallback
    (frame : Frame)
    (name value : Bytes)
    (noIndex : Bool) : CallbackState × List Call :=
  match frame.type with
  | .headers =>
      (s.onResponseHeader frame name value noIndex,
        s.callStateChange .headersReceived)
  | .pushPromise =>
      (s.onPromiseHeader frame name value noIndex, [])
  | _ => (s, [])

/- The state of a found stream after a received frame. -/
def receivedState
    (frame : Frame)
    (strm : Stream) : StreamState :=
  match frame.type with
  | .data =>
      if strm.state = .idle then strm.state
      else if frame.endStream then .halfClosedRemote
      else strm.state
  | .headers =>
      let state :=
        if strm.state = .idle then .«open» else strm.state
      if frame.cat = .headers &&
          ! strm.expectFinalResponse then state
      else if strm.expectFinalResponse then state
      else if frame.endStream then .halfClosedRemote
      else state
  | .pushPromise =>
      if strm.state = .idle then strm.state
      else .reservedRemote
  | .goaway => .closed
  | _ => strm.state

def onFrameRecvCallback (frame : Frame) : CallbackState :=
  s.changeStream frame.streamId fun strm =>
    { strm with state := receivedState frame strm }

def onDataChunkRecvCallback
    (id : StreamId)
    (data : Bytes) : CallbackState × List Call :=
  (s.changeStream id fun strm =>
      { strm with rp := strm.rp.addData data },
    s.callStateChange .loading)

def onStreamCloseCallback
    (id : StreamId) : CallbackState × List Call :=
  match s.findStream id with
  | some strm =>
      -- the stream object, now `Closed`, leaves the map
      (s.removeStream id,
        s.callStateChange .done ++ s.callReady id strm)
  | none => (s.removeStream id, [])

end CallbackState

end Network

------------------------------------------------------------
-- Sending
------------------------------------------------------------

namespace Network

/- `processOutgoingFrame` -/
def Stream.processOutgoingFrame
    (strm : Stream)
    (frame : Frame) : Stream :=
  match frame.type with
  | .headers =>
      { strm with
        rq := frame.nva.foldl
          (fun rq field =>
            rq.addHeader field.1 ⟨field.2, false⟩)
          strm.rq }
  | .goaway => { strm with state := .closed }
  | _ => strm

namespace CallbackState

variable (s : CallbackState)

def beforeFrameSendCallback (frame : Frame) :
    CallbackState :=
  match s.findStream frame.streamId with
  | some _ =>
      s.changeStream frame.streamId
        (·.processOutgoingFrame frame)
  | none =>
      -- the zero stream among others is added here
      s.addStream
        ({ Stream.create frame.streamId with
            state := .«open» }.processOutgoingFrame frame)

/- Run the callback that nghttp2 makes. -/
def apply : Callback → CallbackState × List Call
  | .beginHeaders frame =>
      (s.onBeginHeadersCallback frame, [])
  | .header frame name value noIndex =>
      s.onHeaderCallback frame name value noIndex
  | .frameRecv frame => (s.onFrameRecvCallback frame, [])
  | .dataChunkRecv id data =>
      s.onDataChunkRecvCallback id data
  | .streamClose id => s.onStreamCloseCallback id
  | .beforeFrameSend frame =>
      (s.beforeFrameSendCallback frame, [])

end CallbackState

end Network
