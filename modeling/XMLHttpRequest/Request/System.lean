import XMLHttpRequest.Request.Operations

/-
  A request as a transition system: calls of its user, and the
  jobs and handlers of its io_service, each taken as atomic.

  Key definitions include:
    * `Network.RequestEvent`
    * `Network.Impl.step`
    * `Network.Impl.stepOpened`
-/

------------------------------------------------------------
-- Events
------------------------------------------------------------

namespace Network

inductive RequestEvent
  -- calls of the user
  | openPlain (setup : Setup)
  | openWith
      (method uri : Bytes)
      (async : Bool)
      (setup : Setup)
  | openAuth
      (method uri : Bytes)
      (async : Bool)
      (user password : Bytes)
      (setup : Setup)
  | setRequestHeader (name value : Bytes)
  | setTimeout (milliseconds : Nat)
  | setOnTimeoutCallback (cb : UserFunction)
  | setOnReadyCallback (cb : UserFunction)
  | setOnStateChangedCallback (cb : UserFunction)
  | overrideMimeType (mime : Bytes)
  | send
  | sendWithCallback (cb : UserFunction)
  | sendBody (body : Bytes)
  | abort
  -- what the io_service runs
  | job (outcome : JobOutcome)
  | handler (event : SessionEvent)
  | timer (code : ErrorCode)
  | timerCancelled

namespace Impl

variable (d : Impl)

/- Run the first job of the io_service. -/
def nextJob (outcome : JobOutcome) : Option Impl :=
  match d.jobs with
  | [] => some d
  | job :: jobs => { d with jobs := jobs }.runJob outcome job

/- Run a handler of the session. -/
def runHandler (event : SessionEvent) : Option Impl :=
  match d.session with
  | none => some d
  | some s => d.onSession s (·.step event)

/- The handler of the pending wait of the timer, if any. -/
def timerDone (code : ErrorCode) : Option Impl :=
  match d.timer.waits with
  | 0 => some d
  | waits + 1 =>
      { d with timer := { d.timer with waits := waits } }
        |>.runTimer code

/- A handler of a cancelled wait of the timer, if any. -/
def timerCancelled : Option Impl :=
  match d.timer.cancelled with
  | 0 => some d
  | cancelled + 1 =>
      { d with
        timer := { d.timer with cancelled := cancelled } }
        |>.runTimer .operationAborted

/- A stopped io_service runs nothing. -/
def unlessStopped (result : Option Impl) : Option Impl :=
  if d.serviceStopped then some d else result

/- Handle an event. -/
def step (d : Impl) : RequestEvent → Option Impl
  | .openPlain setup => some (d.openPlain setup)
  | .openWith method uri async setup =>
      some (d.openWith method uri async setup)
  | .openAuth method uri async user password setup =>
      some (d.openAuth method uri async user password setup)
  | .setRequestHeader name value =>
      some (d.setRequestHeader name value)
  | .setTimeout milliseconds =>
      some (d.setTimeout milliseconds)
  | .setOnTimeoutCallback cb =>
      some (d.setOnTimeoutCallback cb)
  | .setOnReadyCallback cb => some (d.setOnReadyCallback cb)
  | .setOnStateChangedCallback cb =>
      some (d.setOnStateChangedCallback cb)
  | .overrideMimeType mime => d.overrideMimeType mime
  | .send => some d.send
  | .sendWithCallback cb => some (d.sendWithCallback cb)
  | .sendBody body => some (d.sendPost body)
  | .abort => d.abort
  | .job outcome => d.unlessStopped (d.nextJob outcome)
  | .handler event => d.unlessStopped (d.runHandler event)
  | .timer code => d.unlessStopped (d.timerDone code)
  | .timerCancelled => d.unlessStopped d.timerCancelled

end Impl

end Network

------------------------------------------------------------
-- Opened Requests
------------------------------------------------------------

namespace Network

/- The event is a call of some `open`. -/
def RequestEvent.opens : RequestEvent → Bool
  | .openPlain _ => true
  | .openWith _ _ _ _ => true
  | .openAuth _ _ _ _ _ _ => true
  | _ => false

/- What happens to a request after it has been opened. -/
abbrev OpenedEvent :=
  { event : RequestEvent // event.opens = false }

namespace Impl

def stepOpened
    (d : Impl)
    (event : OpenedEvent) : Option Impl :=
  d.step event.1

/- A pending wait of the timer ends without an error. -/
def expires (d : Impl) : RequestEvent → Bool
  | .timer code =>
      ! code.failed && d.timer.waits ≠ 0 &&
        ! d.serviceStopped
  | _ => false

end Impl

end Network

------------------------------------------------------------
-- A Request
------------------------------------------------------------

namespace Network

namespace Impl

def freshSetup : Setup where
  garbage := HttpTlsSession.zeroGarbage

def openRoot (async : Bool) : RequestEvent :=
  .openWith (ascii "GET") (ascii "https://a.com/") async
    freshSetup

/- Run the two jobs that a send posts. -/
def submitJobs : List RequestEvent :=
  [.job { connection := HttpTlsSession.h2Connection },
    .job { submission := { assignedId := 1 } }]

end Impl

end Network
