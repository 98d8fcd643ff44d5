import XMLHttpRequest.Session.System
import XMLHttpRequest.Url.Uri

/-
  The state of a request and what its environment decides
  (xmlhttprequest_impl.h).

  Key definitions include:
    * `Network.Impl`
    * `Network.Job`
    * `Network.Impl.onSession`
-/

------------------------------------------------------------
-- Requests
------------------------------------------------------------

namespace Network

/- What a request posts to its io_service. -/
inductive Job
  | connect
  | fetch
  | fetchWithBody
  deriving DecidableEq, Repr

/-
  What becomes of a job: the connection attempt that it makes
  or the submission.
-/
structure JobOutcome where
  connection : Connection := {}
  submission : Submission := { assignedId := 1 }
  deriving DecidableEq, Repr

/-
  Whether the TLS context can be set up, and what the new
  session's members without an initializer hold.
-/
structure Setup where
  tls : Bool := true
  garbage : Garbage

/-
  `XMLHttpRequest::Impl`.  `service` tells whether there is an
  io_service; the session knows whether it was stopped.
  `timeouts` are the functions for which the timer expired.
-/
structure Impl where
  session : Option HttpTlsSession := none
  service : Bool := false
  isAsync : Bool := false
  addr : Bytes := []
  port : Bytes := []
  proto : Bytes := []
  urn : Bytes := []
  method : Bytes := []
  body : Bytes := []
  header : Header := OrderedMultimap.empty
  response : Option Response := none
  readyState : ReadyState := .unsent
  timeout : Int := 0
  timer : Timer := {}
  timerCallback : UserFunction := none
  -- environment
  jobs : List Job := []
  timeouts : List UserFunction := []

end Network

------------------------------------------------------------
-- Closures
------------------------------------------------------------

namespace Network

namespace Impl

variable (d : Impl)

/-
  What an invoked closure does to the request.  That of the
  ready callback also stops the session of a synchronous
  request.
-/
def notice : Invocation → Impl
  | .call (.stateChange _ state) =>
      { d with readyState := state }
  | .call (.ready _ _ _ rp) => { d with response := some rp }
  | _ => d

/- Take over a session whose log was `seen` entries long. -/
def absorb
    (seen : Nat)
    (s : HttpTlsSession) : Impl :=
  { (s.log.drop seen).foldl notice d with session := some s }

/- The session, as the closures of the request see it. -/
def enter (s : HttpTlsSession) : HttpTlsSession :=
  { s with readyStops := ! d.isAsync }

/- Let the session do something. -/
def onSession
    (s : HttpTlsSession)
    (operation : HttpTlsSession → Option HttpTlsSession) :
    Option Impl :=
  (operation (d.enter s)).map (d.absorb s.log.length)

/- The io_service of the request has been stopped. -/
def serviceStopped : Bool :=
  match d.session with
  | some s => s.serviceStopped
  | none => false

end Impl

end Network
