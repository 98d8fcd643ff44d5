import XMLHttpRequest.Session.Callbacks

/-
  The state of a session, and what its environment decides
  (abstractsession.cpp, httptlssession.cpp, netservice.h).

  The members of `AbstractSession::Impl` and of `NetService`
  are one record.  Behind them stand the parts of the
  environment that the code drives: the socket, the timer, the
  io_service and nghttp2, of which only what the code asked of
  them is kept.

  Key definitions include:
    * `Network.Buffer`
    * `Network.Socket`
    * `Network.HttpTlsSession`
    * `Network.Send`
    * `Network.Recv`
    * `Network.Connection`
-/

------------------------------------------------------------
-- Buffers
------------------------------------------------------------

namespace Network

/- `64_Kb` -/
def bufferSize : Nat := 65536

/- `Array<64_Kb>` -/
structure Buffer where
  bytes : Bytes
  length_bytes : bytes.length = bufferSize

namespace Buffer

/-
  Copy bytes to an offset.  What would fall outside the array
  is not kept.
-/
def copy
    (buffer : Buffer)
    (offset : Nat)
    (data : Bytes) : Buffer where
  bytes :=
    (buffer.bytes.take offset ++ data ++
      buffer.bytes.drop (offset + data.length)).take
        bufferSize
  length_bytes := by
    have hLength := buffer.length_bytes
    simp only [List.length_take, List.length_append,
      List.length_drop]
    omega

/- `std::fill_n(std::begin(wb_), n, 0x0)` -/
def zero (buffer : Buffer) (n : Nat) : Buffer :=
  buffer.copy 0 (List.replicate (min n bufferSize) 0)

/- Bytes copied behind a region lengthen it. -/
theorem take_copy
    (buffer : Buffer)
    (offset : Nat)
    (data : Bytes)
    (hFits : offset + data.length ≤ bufferSize) :
    (buffer.copy offset data).bytes.take
        (offset + data.length) =
      buffer.bytes.take offset ++ data := by
  have hLength := buffer.length_bytes
  have hTake :
      (buffer.bytes.take offset).length = offset := by
    rw [List.length_take]
    omega
  simp only [copy]
  rw [List.take_take, Nat.min_eq_left hFits]
  apply List.take_left'
  rw [List.length_append, hTake]

end Buffer

end Network

------------------------------------------------------------
-- Environment
------------------------------------------------------------

namespace Network

/- A `boost::system::error_code`; zero is success. -/
structure ErrorCode where
  value : Nat := 0
  deriving DecidableEq, Repr

def ErrorCode.failed (ec : ErrorCode) : Bool :=
  ec.value ≠ 0

/- `boost::system::errc::invalid_argument` -/
def ErrorCode.invalidArgument : ErrorCode :=
  ⟨22⟩

/- `boost::asio::error::operation_aborted` -/
def ErrorCode.operationAborted : ErrorCode :=
  ⟨125⟩

/-
  The TLS socket.  A write that is under way is kept as the
  bytes it was given.  Connecting a socket again closes it
  first, which cancels what is under way: the handlers of
  cancelled operations are still to run.
-/
structure Socket where
  reads : Nat := 0
  writes : List Bytes := []
  accepted : Bytes := []
  cancelledReads : Nat := 0
  cancelledWrites : Nat := 0
  deriving DecidableEq, Repr

def Socket.close (sock : Socket) : Socket :=
  { sock with
    reads := 0
    writes := []
    cancelledReads := sock.cancelledReads + sock.reads
    cancelledWrites :=
      sock.cancelledWrites + sock.writes.length }

/- A timer: its pending wait and the handlers of old ones. -/
structure Timer where
  waits : Nat := 0
  cancelled : Nat := 0
  deriving DecidableEq, Repr

/- `cancel()`, and what `expires_from_now()` does first. -/
def Timer.cancel (timer : Timer) : Timer :=
  { waits := 0
    cancelled := timer.cancelled + timer.waits }

/- `async_wait` -/
def Timer.wait (timer : Timer) : Timer :=
  { timer with waits := timer.waits + 1 }

/- What is set in an `nghttp2_priority_spec`. -/
structure PrioritySpec where
  streamId : Int := 0
  weight : Int := 0
  exclusive : Bool := false
  deriving DecidableEq, Repr

/- An `nghttp2_nv`. -/
structure NameValue where
  name : Bytes
  value : Bytes
  noIndex : Bool := false
  deriving DecidableEq, Repr

/-
  A request that nghttp2 has taken.  `body` tells whether a
  data provider came with it.
-/
structure SubmittedRequest where
  id : Int
  priority : PrioritySpec
  nva : List NameValue
  body : Bool
  deriving DecidableEq, Repr

/- What the session has submitted to nghttp2 and got of it. -/
structure Nghttp2 where
  settings : Nat := 0
  requests : List SubmittedRequest := []
  pings : Nat := 0
  sent : List Bytes := []
  deriving DecidableEq, Repr

/-
  What happens inside nghttp2 while it is called: one of its
  callbacks, or a stop by a function of the user.
-/
inductive Upcall
  | callback (c : Callback)
  | stop
  deriving DecidableEq, Repr

/-
  A return of `nghttp2_session_mem_send` after its upcalls:
  a chunk, the empty one standing for zero, or `none` for
  NGHTTP2_ERR_NOMEM.
-/
structure Send where
  upcalls : List Upcall := []
  result : Option Bytes := some []
  deriving DecidableEq, Repr

/-
  A return of `nghttp2_session_mem_recv` after its upcalls,
  what nghttp2 sends then, and what it wants afterwards.
-/
structure Recv where
  upcalls : List Upcall := []
  rv : Int
  sends : List Send := []
  wantRead : Bool := true
  wantWrite : Bool := false
  deriving DecidableEq, Repr

/-
  The outcomes of a connection attempt, the protocol names
  that NPN and ALPN negotiated, whether
  `nghttp2_session_client_new` succeeds, and what nghttp2
  sends at first.
-/
structure Connection where
  resolve : ErrorCode := {}
  connect : ErrorCode := {}
  handshake : ErrorCode := {}
  npn : Option Bytes := none
  alpn : Option Bytes := none
  clientNew : Bool := true
  sends : List Send := []
  deriving DecidableEq, Repr

/-
  What becomes of a request: the bytes that nghttp2 reads
  where the method's temporary copy was, the identifier it
  assigns (or an error), and what it sends then.
-/
structure Submission where
  stale : Bytes := []
  assignedId : Int
  sends : List Send := []
  deriving DecidableEq, Repr

end Network

------------------------------------------------------------
-- Sessions
------------------------------------------------------------

namespace Network

/- A closure of a session that was invoked. -/
inductive Invocation
  | call (c : Call)
  | started (closure : Nat)
  | stopped (closure : Nat)
  deriving DecidableEq

/-
  `readyStops` tells whether the closure of the ready callback
  stops the session when it is invoked.  `overrun` records
  that a copy left the write buffer, after which C++ promises
  nothing.
-/
structure HttpTlsSession extends CallbackState where
  -- AbstractSession::Impl
  session : Bool := false
  pingIsStarted : Bool
  wb : Buffer
  wblen : Nat
  stopped : Bool := true
  writing : Bool := false
  onStopCb : UserFunction := none
  onStartCb : UserFunction := none
  insideCb : Bool := false
  dataPending : Option Bytes := none
  -- NetService
  host : Bytes
  port : Bytes
  -- environment
  readyStops : Bool := false
  serviceStopped : Bool := false
  sock : Socket := {}
  ping : Timer := {}
  nghttp2 : Nghttp2 := {}
  log : List Invocation := []
  overrun : Bool := false

/- What the members without an initializer hold. -/
structure Garbage where
  pingIsStarted : Bool
  wb : Buffer
  wblen : Nat

/- The constructor of `HttpTlsSession`. -/
def HttpTlsSession.create
    (host port : Bytes)
    (garbage : Garbage) : HttpTlsSession :=
  { pingIsStarted := garbage.pingIsStarted
    wb := garbage.wb
    wblen := garbage.wblen
    host := host
    port := port }

end Network
