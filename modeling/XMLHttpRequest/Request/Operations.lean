import XMLHttpRequest.Base.JsFunctions
import XMLHttpRequest.Request.State

/-
  The operations of a request (xmlhttprequest.cpp,
  xmlhttprequest_impl.cpp).

  An operation returns `none` when the program does not go on
  after it: the thread waits for its own lock, or a null
  session or io_service is used.

  Key definitions include:
    * `Network.Impl.prepare`
    * `Network.Impl.openWith`
    * `Network.Impl.sendPost`
    * `Network.Impl.runJob`
    * `Network.Impl.runTimer`
-/

------------------------------------------------------------
-- Methods
------------------------------------------------------------

namespace Network

/- `AbstractSession::Method` -/
inductive Method
  | get
  | post
  | unknown
  deriving DecidableEq, Repr

def methodGet : Bytes := ascii "GET"
def methodPost : Bytes := ascii "POST"

/- `stringFromEnum` -/
def stringFromEnum : Method → Bytes
  | .get => methodGet
  | .post => methodPost
  | .unknown => []

/-
  `methodFromString`, which compares as many characters as
  the name of the method has.
-/
def methodFromString (method : Bytes) : Method :=
  let uppercase := toUpper method
  if methodGet.isPrefixOf uppercase then .get
  else if methodPost.isPrefixOf uppercase then .post
  else .unknown

end Network

------------------------------------------------------------
-- Opening
------------------------------------------------------------

namespace Network

namespace Impl

variable (d : Impl)

/- `Impl::setupSession` -/
def setupSession (setup : Setup) : Impl × Bool :=
  let d := { d with service := true }
  if setup.tls then
    ({ d with
        session :=
          some
            (HttpTlsSession.create d.addr d.port
              setup.garbage) }, true)
  else (d, false)

/- The function that `initCallbacks` sets on stop. -/
def stopService : UserFunction := some 0

def initCallbacks : Impl :=
  if d.readyState ≠ .unsent then d
  else
    { d with
      session := d.session.map fun s =>
        { s with
          onReadyStateChange :=
            s.onReadyStateChange <|> some .initial
          onStopCb := s.onStopCb <|> stopService } }

/- `setup`, without its result, which is only logged. -/
def setup (setup : Setup) : Impl :=
  match d.session with
  | some _ => d
  | none =>
      let (d, ok) := d.setupSession setup
      if ok then d.initCallbacks else d

/- `prepare`; `false` leaves the flag set all the same. -/
def prepare
    (method uri : Bytes)
    (async : Bool) : Impl × Bool :=
  let d := { d with isAsync := async }
  match proccessUri uri with
  | some elements =>
      ({ d with
          addr := elements.addr
          port := elements.port
          proto := elements.protocol
          urn := elements.urn
          method := toUpper method }, true)
  | none => (d, false)

def setupTimer : Impl :=
  if d.timeout ≤ 0 then d
  else { d with timer := d.timer.cancel.wait }

/- Invoke the closure for state changes, if set. -/
def callStateChange (state : ReadyState) : Impl :=
  match d.session with
  | none => d
  | some s =>
      d.absorb s.log.length
        { s with
          log :=
            s.log ++
              (s.toCallbackState.callStateChange state).map
                .call }

/- `open()` -/
def openPlain (setup : Setup) : Impl :=
  if .opened ≤ d.readyState then d
  else
    ((d.setup setup).setupTimer).callStateChange .opened

/- `open(method, uri, async)` -/
def openWith
    (method uri : Bytes)
    (async : Bool)
    (setup : Setup) : Impl :=
  let (d, ok) := d.prepare method uri async
  if ok then d.openPlain setup else d

/- Both overloads of `setRequestHeader`. -/
def setRequestHeader (name value : Bytes) : Impl :=
  { d with header := d.header.emplace name ⟨value, false⟩ }

/- `open(method, uri, async, user, password)` -/
def openAuth
    (method uri : Bytes)
    (async : Bool)
    (user password : Bytes)
    (setup : Setup) : Impl :=
  (d.openWith method uri async setup).setRequestHeader
    (ascii "Authorization")
    (ascii "Basic " ++
      encodeFromArray (user ++ [58] ++ password))

/- `XMLHttpRequest(std::string, std::string, bool)` -/
def create
    (method url : Bytes)
    (async : Bool)
    (setup : Setup) : Impl :=
  (({} : Impl).prepare method url async).1.setup setup

/-
  `XMLHttpRequest(std::string_view, std::string_view, bool)`,
  which reads from `data()` of both.
-/
def createFromView
    (method url : StringView)
    (async : Bool)
    (setup : Setup) : Impl :=
  create method.data url.data async setup

end Impl

end Network

------------------------------------------------------------
-- Settings
------------------------------------------------------------

namespace Network

namespace Impl

variable (d : Impl)

/-
  `timeout(milliseconds)`, of which `std::chrono::milliseconds`
  makes a signed number.
-/
def setTimeout (milliseconds : Nat) : Impl :=
  if d.readyState ≠ .unsent then d
  else { d with timeout := toInt64 milliseconds }

def setOnTimeoutCallback (cb : UserFunction) : Impl :=
  { d with timerCallback := cb }

/- Nothing is set before there is a session. -/
def setOnReadyCallback (cb : UserFunction) : Impl :=
  { d with
    session := d.session.map fun s =>
      { s with onReadyCb := some ⟨cb⟩ } }

def setOnStateChangedCallback (cb : UserFunction) : Impl :=
  { d with
    session := d.session.map fun s =>
      { s with onReadyStateChange := some (.wrapper cb) } }

def overrideMimeType (mime : Bytes) : Option Impl :=
  d.session.map fun s =>
    { d with
      session := some { s with overrideMimeType := mime } }

end Impl

end Network

------------------------------------------------------------
-- Sending
------------------------------------------------------------

namespace Network

namespace Impl

variable (d : Impl)

def sendGet : Impl :=
  if ! d.service || d.session.isNone then d
  else
    { d with
      response := none
      jobs := d.jobs ++ [.connect, .fetch] }

def sendPost (body : Bytes) : Impl :=
  if ! d.service || d.session.isNone then d
  else
    { d with
      body := body
      response := none
      jobs := d.jobs ++ [.connect, .fetchWithBody] }

/- `send()` -/
def send : Impl :=
  match methodFromString d.method with
  | .get => d.sendGet
  | .post => d.sendPost []
  | .unknown => d

/- `send(onReadyCallback)` -/
def sendWithCallback (cb : UserFunction) : Impl :=
  match d.session with
  | none => d
  | some _ => (d.setOnReadyCallback cb).send

def abort : Option Impl :=
  match d.service, d.session with
  | true, some s =>
      d.onSession { s with serviceStopped := true }
        fun s => some s.stop
  | _, _ => none

end Impl

end Network

------------------------------------------------------------
-- Jobs and the Timer
------------------------------------------------------------

namespace Network

namespace Impl

variable (d : Impl)

/- The URL that is submitted. -/
def submittedUrl : Bytes :=
  d.proto ++ ascii "://" ++ d.addr ++ ascii ":" ++ d.port ++
    d.urn

def connect (connection : Connection) : Option Impl :=
  match d.session with
  | none => none
  | some s =>
      if s.stopped then
        d.onSession s fun s =>
          (s.startResolve connection).map (·.1)
      else some d

/-
  Both `Impl::fetch` and the stop of the session on a negative
  identifier.  `body` tells which of the two it is.
-/
def submitRequest
    (s : HttpTlsSession)
    (body : Bool)
    (submission : Submission) : Option Impl :=
  match methodFromString d.method with
  | .unknown => d.onSession s fun s => some s.stop
  | method =>
      d.onSession s fun s =>
        (s.submit
          { url := d.submittedUrl
            method := stringFromEnum method
            header := d.header
            body := body }
          submission).map fun (s, _, id) =>
            if id < 0 then s.stop else s

def fetch (submission : Submission) : Option Impl :=
  match d.session with
  | none => none
  | some s =>
      if s.stopped then some d
      else d.submitRequest s false submission

def fetchWithBody (submission : Submission) : Option Impl :=
  match d.session with
  | none => none
  | some s => d.submitRequest s true submission

def runJob (outcome : JobOutcome) : Job → Option Impl
  | .connect => d.connect outcome.connection
  | .fetch => d.fetch outcome.submission
  | .fetchWithBody => d.fetchWithBody outcome.submission

/- The handler of the timer that `setupTimer` arms. -/
def runTimer (code : ErrorCode) : Option Impl :=
  if code.failed then some d
  else
    { d with
      timeouts := d.timeouts ++ [d.timerCallback] }.abort

end Impl

end Network
