import XMLHttpRequest.Session.Operations
import XMLHttpRequest.Library.Transition

/-
  A session as a transition system: calls from outside and
  the handlers of its io_service, one after another on one
  thread.

  Key definitions include:
    * `Network.SessionEvent`
    * `Network.HttpTlsSession.step`
    * `Network.HttpTlsSession.Fresh`

  Key theorems include:
    * `Network.HttpTlsSession.create_fresh`
-/

------------------------------------------------------------
-- Events
------------------------------------------------------------

namespace Network

/-
  What can happen to a session between two returns to its
  io_service.  A handler without its operation under way is
  not run.
-/
inductive SessionEvent
  | startResolve (connection : Connection)
  | readDone (ec : ErrorCode) (n : Nat) (recv : Recv)
  | readCancelled (recv : Recv)
  | writeDone
      (ec : ErrorCode)
      (n : Nat)
      (sends : List Send)
  | writeCancelled (sends : List Send)
  | pingExpired (sends : List Send)
  | pingCancelled (sends : List Send)
  | write (sends : List Send)
  | submit
      (arguments : SubmitArguments)
      (submission : Submission)
  | startPing
  | cancelPing
  | stop
  deriving DecidableEq

/- What nghttp2 sends in the course of an event. -/
def SessionEvent.sends : SessionEvent → List Send
  | .startResolve connection => connection.sends
  | .readDone _ _ recv => recv.sends
  | .readCancelled recv => recv.sends
  | .writeDone _ _ sends => sends
  | .writeCancelled sends => sends
  | .pingExpired sends => sends
  | .pingCancelled sends => sends
  | .write sends => sends
  | .submit _ submission => submission.sends
  | _ => []

namespace HttpTlsSession

/-
  The socket takes the first `n` bytes of the first write
  under way.
-/
def completeWrite
    (s : HttpTlsSession)
    (n : Nat)
    (data : Bytes)
    (writes : List Bytes) : HttpTlsSession :=
  { s with
    sock :=
      { s.sock with
        writes := writes
        accepted := s.sock.accepted ++ data.take n } }

/- Handle an event; `none` is a thread that waits forever. -/
def step
    (s : HttpTlsSession) :
    SessionEvent → Option HttpTlsSession
  | .startResolve connection =>
      (s.startResolve connection).map (·.1)
  | .readDone ec n recv =>
      match s.sock.reads with
      | 0 => some s
      | reads + 1 =>
          { s with
            sock :=
              { s.sock with reads := reads } }.readHandler
            ec n recv
  | .readCancelled recv =>
      match s.sock.cancelledReads with
      | 0 => some s
      | reads + 1 =>
          { s with
            sock :=
              { s.sock with
                cancelledReads := reads } }.readHandler
            .operationAborted 0 recv
  | .writeDone ec n sends =>
      match s.sock.writes with
      | [] => some s
      | data :: writes =>
          (s.completeWrite n data writes).writeHandler
            ec (min n data.length) sends
  | .writeCancelled sends =>
      match s.sock.cancelledWrites with
      | 0 => some s
      | writes + 1 =>
          { s with
            sock :=
              { s.sock with
                cancelledWrites := writes } }.writeHandler
            .operationAborted 0 sends
  | .pingExpired sends =>
      match s.ping.waits with
      | 0 => some s
      | waits + 1 =>
          { s with
            ping :=
              { s.ping with waits := waits } }.pingHandler
            {} sends
  | .pingCancelled sends =>
      match s.ping.cancelled with
      | 0 => some s
      | cancelled + 1 =>
          { s with
            ping :=
              { s.ping with
                cancelled := cancelled } }.pingHandler
            .operationAborted sends
  | .write sends => s.write sends
  | .submit arguments submission =>
      (s.submit arguments submission).map (·.1)
  | .startPing => some s.startPing
  | .cancelPing => some s.cancelPing
  | .stop => some s.stop

/-
  A session as its constructor leaves it, but for callbacks
  and an override that have been set since.
-/
structure Fresh (s : HttpTlsSession) : Prop where
  session : s.session = false
  stopped : s.stopped = true
  writing : s.writing = false
  insideCb : s.insideCb = false
  dataPending : s.dataPending = none
  streams : s.streams = ∅
  sock : s.sock = {}
  ping : s.ping = {}
  nghttp2 : s.nghttp2 = {}
  log : s.log = []

theorem create_fresh
    (host port : Bytes)
    (garbage : Garbage) :
    (create host port garbage).Fresh := by
  constructor <;> rfl

end HttpTlsSession

end Network

------------------------------------------------------------
-- A Connection
------------------------------------------------------------

namespace Network

namespace HttpTlsSession

/- What the members without an initializer may hold. -/
def zeroGarbage : Garbage where
  pingIsStarted := false
  wb :=
    ⟨List.replicate bufferSize 0, List.length_replicate⟩
  wblen := 0

/- A connection to a peer that has agreed to HTTP/2. -/
def h2Connection : Connection :=
  { alpn := some nghttp2H2
    sends := [{ result := some (ascii "PRI") }] }

/- A session for `a:443` with its preface on the way. -/
def connectedRun : List SessionEvent :=
  [.startResolve h2Connection]

def submitRoot : SessionEvent :=
  .submit { url := ascii "https://a:443/"
            method := ascii "GET" }
    { assignedId := 1 }

end HttpTlsSession

end Network
