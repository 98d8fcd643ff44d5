import XMLHttpRequest.Base.SessionUtil
import XMLHttpRequest.Session.State
import XMLHttpRequest.Url.UrlParser

/-
  The operations of a session (abstractsession.cpp,
  httptlssession.cpp).

  An operation that may lock `insideCb` returns `none` when it
  waits for a lock that its own thread holds.

  Key definitions include:
    * `Network.HttpTlsSession.write`
    * `Network.HttpTlsSession.writeHandler`
    * `Network.HttpTlsSession.readHandler`
    * `Network.HttpTlsSession.startResolve`
    * `Network.HttpTlsSession.submit`
-/

------------------------------------------------------------
-- Stopping
------------------------------------------------------------

namespace Network

namespace HttpTlsSession

variable (s : HttpTlsSession)

def cancelPing : HttpTlsSession :=
  { s with
    pingIsStarted := false
    ping := s.ping.cancel }

/- `shutdownSocket`, which stops the io_service instead. -/
def shutdownSocket : HttpTlsSession :=
  { s with serviceStopped := true }

/-
  With a stop callback set, `onStopCallback()` makes an empty
  function object of that type; the closure is not invoked.
-/
def stop : HttpTlsSession :=
  if s.stopped then s
  else { s.cancelPing.shutdownSocket with stopped := true }

/- Run a callback of nghttp2 and the closures it invokes. -/
def runCallback (c : Callback) : HttpTlsSession :=
  let (callbackState, calls) := s.toCallbackState.apply c
  let called :=
    { s with
      toCallbackState := callbackState
      log := s.log ++ calls.map .call }
  if s.readyStops && calls.any (·.isReady) then called.stop
  else called

/- Run what happens inside a call of nghttp2. -/
def upcall : Upcall → HttpTlsSession
  | .callback c => s.runCallback c
  | .stop => s.stop

def upcalls (upcalls : List Upcall) : HttpTlsSession :=
  upcalls.foldl upcall s

end HttpTlsSession

end Network

------------------------------------------------------------
-- Locking
------------------------------------------------------------

namespace Network

namespace HttpTlsSession

variable (s : HttpTlsSession)

/- The mutex is held. -/
def hold : HttpTlsSession :=
  { s with insideCb := true }

/- `std::lock_guard` on `insideCb`. -/
def lock : Option HttpTlsSession :=
  if s.insideCb then none else some s.hold

/- The end of a guard's scope, or `unlock()`. -/
def unlock : HttpTlsSession :=
  { s with insideCb := false }

end HttpTlsSession

end Network

------------------------------------------------------------
-- Writing
------------------------------------------------------------

namespace Network

namespace HttpTlsSession

variable (s : HttpTlsSession)

/- `std::copy_n` behind `wblen_` bytes, and `wblen_ += n`. -/
def stage (data : Bytes) : HttpTlsSession :=
  { s with
    wb := s.wb.copy s.wblen data
    wblen := sizeT (s.wblen + data.length : Nat)
    overrun :=
      s.overrun || bufferSize < s.wblen + data.length }

/- Stage the chunk that did not fit the last time. -/
def stagePending : HttpTlsSession :=
  match s.dataPending with
  | some data => { s.stage data with dataPending := none }
  | none => s

/- nghttp2 has handed out a chunk. -/
def receiveChunk (data : Bytes) : HttpTlsSession :=
  { s with
    nghttp2 :=
      { s.nghttp2 with sent := s.nghttp2.sent ++ [data] } }

/-
  The loop of `write`; `false` is its return when nghttp2 is
  out of memory.  Where the list ends nghttp2 has nothing
  left to send.
-/
def sendLoop
    (s : HttpTlsSession) :
    List Send → HttpTlsSession × Bool
  | [] => (s, true)
  | send :: sends =>
      let s := s.upcalls send.upcalls
      match send.result with
      | none => (s.stop, false)
      | some [] => (s, true)
      | some data =>
          let s := s.receiveChunk data
          if sizeT (s.wblen + data.length : Nat) >
              bufferSize then
            ({ s with dataPending := some data }, true)
          else (s.stage data).sendLoop sends

/- `async_write_some` of the staged bytes -/
def writeSocket : HttpTlsSession :=
  { s with
    sock :=
      { s.sock with
        writes :=
          s.sock.writes ++ [s.wb.bytes.take s.wblen] } }

def write (sends : List Send) : Option HttpTlsSession :=
  if s.stopped then some s
  else if s.writing then some s
  else
    s.stagePending.lock.map fun locked =>
      let (s, more) := locked.sendLoop sends
      let s := s.unlock
      if ! more then s
      else if s.wblen = 0 then s
      else { s with writing := true }.writeSocket

/- Stream zero is in the map, `Closed`. -/
def zeroStreamClosed : Bool :=
  match s.findStream 0 with
  | some strm => strm.state = .closed
  | none => false

/- Zero what has been written, and be ready to write again. -/
def clearBuffer : HttpTlsSession :=
  { s with
    wb := s.wb.zero s.wblen
    wblen := 0
    writing := false
    overrun := s.overrun || bufferSize < s.wblen }

/-
  The completion handler of `writeSocket`, which is not
  interested in the number of bytes written.
-/
def writeHandler
    (ec : ErrorCode)
    (_n : Nat)
    (sends : List Send) : Option HttpTlsSession :=
  if ec.failed then some s.stop
  else if s.zeroStreamClosed then some s.stop
  else s.clearBuffer.write sends

end HttpTlsSession

end Network

------------------------------------------------------------
-- Reading
------------------------------------------------------------

namespace Network

namespace HttpTlsSession

variable (s : HttpTlsSession)

/- `async_read_some` into the read buffer -/
def readSocket : HttpTlsSession :=
  { s with sock := { s.sock with reads := s.sock.reads + 1 } }

def read : HttpTlsSession :=
  if s.stopped then s else s.readSocket

def shouldStop (recv : Recv) : Bool :=
  ! s.writing && ! recv.wantRead && ! recv.wantWrite

/- The completion handler of `readSocket`. -/
def readHandler
    (ec : ErrorCode)
    (bytesTransferred : Nat)
    (recv : Recv) : Option HttpTlsSession :=
  if bytesTransferred = 0 then some s
  else if ec.failed then some s.stop
  else
    s.lock.bind fun locked =>
      let s := locked.upcalls recv.upcalls
      if recv.rv ≠ bytesTransferred then some s.stop.unlock
      else
        (s.unlock.write recv.sends).map fun s =>
          if s.shouldStop recv then s.stop else s.read

end HttpTlsSession

end Network

------------------------------------------------------------
-- Pinging
------------------------------------------------------------

namespace Network

namespace HttpTlsSession

variable (s : HttpTlsSession)

def startPing : HttpTlsSession :=
  { s with
    ping := s.ping.cancel.wait
    pingIsStarted := true }

def submitPing (ec : ErrorCode) : HttpTlsSession :=
  if s.stopped || ec = .operationAborted then s
  else
    { s with
      nghttp2 :=
        { s.nghttp2 with pings := s.nghttp2.pings + 1 } }

/- The handler of the ping timer. -/
def pingHandler
    (ec : ErrorCode)
    (sends : List Send) : Option HttpTlsSession :=
  ((s.submitPing ec).write sends).map startPing

end HttpTlsSession

end Network

------------------------------------------------------------
-- Connecting
------------------------------------------------------------

namespace Network

namespace HttpTlsSession

variable (s : HttpTlsSession)

/- `Impl::setupSession` -/
def setupSession
    (connection : Connection) : HttpTlsSession × Bool :=
  if s.session then (s, false)
  else if connection.clientNew then
    ({ s with session := true }, true)
  else (s, false)

/- `sendClientConnectionHeader` -/
def sendClientConnectionHeader : HttpTlsSession :=
  { s with
    nghttp2 :=
      { s.nghttp2 with
        settings := s.nghttp2.settings + 1 } }

def onSocketConnected
    (connection : Connection) : Option HttpTlsSession :=
  let (s, ok) :=
    { s with stopped := false }.setupSession connection
  if ! ok then some s
  else
    (s.sendClientConnectionHeader.write
        connection.sends).map fun s => s.read.startPing

/-
  `HttpTlsSession::startConnect`.  A protocol other than
  HTTP/2 ends it without an error code.
-/
def startConnect
    (connection : Connection) : HttpTlsSession × ErrorCode :=
  if ! s.stopped then (s, {})
  else
    let s := { s with sock := s.sock.close }
    if connection.connect.failed then (s, connection.connect)
    else if connection.handshake.failed then
      (s.stop, connection.handshake)
    else if ! tlsH2Negotiated connection.npn connection.alpn
    then (s, {})
    else (s, {})

/- Invoke the closure of `getOnConnectCallback`, if set. -/
def invokeOnStart : HttpTlsSession :=
  match s.onStartCb with
  | some closure =>
      { s with log := s.log ++ [.started closure] }
  | none => s

/-
  `AbstractSession::startResolve` and its caller in
  `HttpTlsSession`, which returns whether no error is left.
-/
def startResolve
    (connection : Connection) :
    Option (HttpTlsSession × Bool) :=
  if connection.resolve.failed then some (s.stop, false)
  else
    let (s, ec) := s.startConnect connection
    if ec.failed then some (s.stop, false)
    else
      (s.onSocketConnected connection).map fun s =>
        (s.invokeOnStart, true)

end HttpTlsSession

end Network

------------------------------------------------------------
-- Submitting
------------------------------------------------------------

namespace Network

/- The arguments of `AbstractSession::submit`. -/
structure SubmitArguments where
  url : Bytes
  method : Bytes
  header : Header := OrderedMultimap.empty
  priority : PrioritySpec := {}
  body : Bool := false
  deriving DecidableEq

/- The parsed URL, when `submit` goes on with it. -/
def submittableUrl (url : Bytes) : Option HttpParserUrl :=
  (httpParserParseUrl url).filter fun u =>
    u.isSet .schema && u.isSet .host

/- The value of `:path`. -/
def submittedPath (url : Bytes) (u : HttpParserUrl) : Bytes :=
  let rawPath := u.component url .path
  let rawPath := if rawPath = [] then ascii "/" else rawPath
  if u.isSet .query then
    rawPath ++ ascii "?" ++ u.component url .query
  else rawPath

/-
  The list given to nghttp2.  The value of `:method` is read
  from where a temporary copy of the method was, as many bytes
  as the method had.
-/
def submittedNva
    (arguments : SubmitArguments)
    (u : HttpParserUrl)
    (stale : Bytes) : List NameValue :=
  [ { name := ascii ":method"
      value :=
        stale.takeD (cString arguments.method).length 0 },
    { name := ascii ":scheme"
      value := u.component arguments.url .schema },
    { name := ascii ":path"
      value := submittedPath arguments.url u } ] ++
    arguments.header.entries.map fun kv =>
      { name := kv.1
        value := kv.2.value
        noIndex := kv.2.sensitive }

/-
  `reciveCallback`, the data provider of a request: what it
  copies, what it leaves of the body and whether it sets
  NGHTTP2_DATA_FLAG_EOF.
-/
def reciveCallback
    (body : Bytes)
    (length : Nat) : Bytes × Bytes × Bool :=
  let bodyLen := min body.length length
  if bodyLen > 0 then
    (body.take bodyLen, body.drop bodyLen, false)
  else ([], body, true)

namespace HttpTlsSession

variable (s : HttpTlsSession)

/- nghttp2 has taken a request. -/
def receiveRequest
    (request : SubmittedRequest) : HttpTlsSession :=
  { s with
    nghttp2 :=
      { s.nghttp2 with
        requests := s.nghttp2.requests ++ [request] } }

/- `write` under `try_lock`. -/
def writeLocked (sends : List Send) : Option HttpTlsSession :=
  if s.insideCb then some s
  else (s.hold.write sends).map unlock

/- `d->streams.try_emplace` of a stream for the request -/
def registerStream (id : Int) : HttpTlsSession :=
  { s with
    toCallbackState :=
      s.addStream (Stream.create id.toNat) }

def submit
    (arguments : SubmitArguments)
    (submission : Submission) :
    Option (HttpTlsSession × ErrorCode × Int) :=
  if s.stopped then some (s, {}, 0)
  else
    match submittableUrl arguments.url with
    | none => some (s, .invalidArgument, -1)
    | some u =>
        if submission.assignedId < 0 then some (s, {}, 0)
        else
          let request :=
            { id := submission.assignedId
              priority := arguments.priority
              nva :=
                submittedNva arguments u submission.stale
              body := arguments.body }
          ((s.receiveRequest request).writeLocked
              submission.sends).map fun s =>
            (s.registerStream submission.assignedId, {},
              submission.assignedId)

end HttpTlsSession

end Network
