import XMLHttpRequest.Session.Frames
import Mathlib.Logic.Relation

/-
  Sessions whose handlers may have been queued before their
  operation was cancelled.

  An operation that has ended cannot be cancelled any more:
  its handler still runs with the result that it had.  What a
  step does, apart from the completion of a write, is a chain
  of passes: of writes and of what leaves the outbound bytes
  alone.  Unless it stirs the pings it is calm.

  Key definitions include:
    * `Network.QueuedEvent`
    * `Network.HttpTlsSession.stepQueued`
    * `Network.HttpTlsSession.Quiet`
    * `Network.HttpTlsSession.Calm`
    * `Network.HttpTlsSession.Passes`

  Key theorems include:
    * `Network.HttpTlsSession.stepQueued_of_completion`
    * `Network.HttpTlsSession.stepQueued_passes`
    * `Network.HttpTlsSession.stepQueued_calm`
-/

------------------------------------------------------------
-- Events
------------------------------------------------------------

namespace Network

/-
  An event of a session, or the handler of a read, a write or
  a wait that has ended before it could be cancelled.
-/
inductive QueuedEvent
  | session (event : SessionEvent)
  | read (ec : ErrorCode) (n : Nat) (recv : Recv)
  | write (ec : ErrorCode) (n : Nat) (sends : List Send)
  | ping (ec : ErrorCode) (sends : List Send)
  deriving DecidableEq

namespace QueuedEvent

/- What nghttp2 sends in the course of an event. -/
def sends : QueuedEvent → List Send
  | session event => event.sends
  | read _ _ recv => recv.sends
  | write _ _ sends => sends
  | ping _ sends => sends

/- The event may start or cancel the pings or submit one. -/
def stirs : QueuedEvent → Bool
  | session (.startResolve _) => true
  | session (.pingExpired _) => true
  | session (.pingCancelled _) => true
  | session .startPing => true
  | session .cancelPing => true
  | ping _ _ => true
  | _ => false

end QueuedEvent

namespace HttpTlsSession

/- Handle an event; `none` is a thread that waits forever. -/
def stepQueued
    (s : HttpTlsSession) :
    QueuedEvent → Option HttpTlsSession
  | .session event => s.step event
  | .read ec n recv =>
      match s.sock.cancelledReads with
      | 0 => some s
      | reads + 1 =>
          { s with
            sock :=
              { s.sock with
                cancelledReads := reads } }.readHandler
            ec n recv
  | .write ec n sends =>
      match s.sock.cancelledWrites with
      | 0 => some s
      | writes + 1 =>
          { s with
            sock :=
              { s.sock with
                cancelledWrites := writes } }.writeHandler
            ec n sends
  | .ping ec sends =>
      match s.ping.cancelled with
      | 0 => some s
      | cancelled + 1 =>
          { s with
            ping :=
              { s.ping with
                cancelled := cancelled } }.pingHandler
            ec sends

/- Writes whose handlers have not run yet. -/
def outstanding (s : HttpTlsSession) : Nat :=
  s.sock.writes.length + s.sock.cancelledWrites

/- The error code with which the event completes a write. -/
def completion?
    (s : HttpTlsSession) :
    QueuedEvent → Option ErrorCode
  | .session (.writeDone ec _ _) =>
      if s.sock.writes = [] then none else some ec
  | .session (.writeCancelled _) =>
      if s.sock.cancelledWrites = 0 then none
      else some .operationAborted
  | .write ec _ _ =>
      if s.sock.cancelledWrites = 0 then none else some ec
  | _ => none

end HttpTlsSession

end Network

------------------------------------------------------------
-- Quiet Changes
------------------------------------------------------------

namespace Network

namespace HttpTlsSession

/- Neither streams nor closures nor the log have changed. -/
structure SameFace (s s' : HttpTlsSession) : Prop where
  callbackState : s'.toCallbackState = s.toCallbackState
  onStopCb : s'.onStopCb = s.onStopCb
  onStartCb : s'.onStartCb = s.onStartCb
  readyStops : s'.readyStops = s.readyStops
  host : s'.host = s.host
  port : s'.port = s.port
  log : s'.log = s.log

/- Nothing of the bytes to be written has changed. -/
structure SameOutbound (s s' : HttpTlsSession) : Prop where
  wb : s'.wb = s.wb
  wblen : s'.wblen = s.wblen
  dataPending : s'.dataPending = s.dataPending
  writing : s'.writing = s.writing
  sent : s'.nghttp2.sent = s.nghttp2.sent
  overrun : s'.overrun = s.overrun
  outstanding : s'.outstanding = s.outstanding
  writes : ∀ data ∈ s'.sock.writes, data ∈ s.sock.writes

/- Flags, reads, timers and the mutex have changed at most. -/
structure Quiet (s s' : HttpTlsSession) : Prop extends
    SameFace s s', SameOutbound s s'

/- No ping is started, and no wait of its timer pending. -/
def Rests (s : HttpTlsSession) : Prop :=
  s.pingIsStarted = false ∧ s.ping.waits = 0

/-
  The pings have not changed, but that a stop of the running
  session has ended them.
-/
structure Calm (s s' : HttpTlsSession) : Prop where
  rests : s.Rests → s'.Rests
  rested : s.stopped = true → s'.Rests → s.Rests
  pings : s'.nghttp2.pings = s.nghttp2.pings
  stopped : s.stopped = true → s'.stopped = true
  ended : s.stopped = false → s'.stopped = true → s'.Rests

variable {s s' : HttpTlsSession}

theorem Undisturbed.sameOutbound
    (hUndisturbed : Undisturbed s s') :
    SameOutbound s s' where
  wb := hUndisturbed.wb
  wblen := hUndisturbed.wblen
  dataPending := hUndisturbed.dataPending
  writing := hUndisturbed.writing
  sent := by rw [hUndisturbed.nghttp2]
  overrun := hUndisturbed.overrun
  outstanding := by
    rw [outstanding, outstanding, hUndisturbed.sock]
  writes := by
    rw [hUndisturbed.sock]
    exact fun _ => id

/- Neither the pings nor the flag of a stop have changed. -/
theorem calm_of_same
    (hStarted : s'.pingIsStarted = s.pingIsStarted)
    (hPing : s'.ping = s.ping)
    (hPings : s'.nghttp2.pings = s.nghttp2.pings)
    (hStopped : s'.stopped = s.stopped) :
    Calm s s' where
  rests := by rw [Rests, Rests, hStarted, hPing]; exact id
  rested _ := by rw [Rests, Rests, hStarted, hPing]; exact id
  pings := hPings
  stopped := by rw [hStopped]; exact id
  ended hRunning hEnd :=
    absurd ((hStopped.symm.trans hEnd).symm.trans hRunning)
      (by decide)

protected theorem Calm.refl (s : HttpTlsSession) :
    Calm s s :=
  calm_of_same rfl rfl rfl rfl

protected theorem Calm.trans
    {s'' : HttpTlsSession}
    (hFirst : Calm s s')
    (hSecond : Calm s' s'') :
    Calm s s'' where
  rests hRests := hSecond.rests (hFirst.rests hRests)
  rested hStopped hRests :=
    hFirst.rested hStopped
      (hSecond.rested (hFirst.stopped hStopped) hRests)
  pings := hSecond.pings.trans hFirst.pings
  stopped hStopped := hSecond.stopped (hFirst.stopped hStopped)
  ended hRunning hStopped := by
    cases hMiddle : s'.stopped with
    | false => exact hSecond.ended hMiddle hStopped
    | true =>
        exact hSecond.rests (hFirst.ended hRunning hMiddle)

theorem stop_sameFace (s : HttpTlsSession) :
    SameFace s s.stop := by
  unfold stop
  split <;> constructor <;> rfl

theorem stop_quiet (s : HttpTlsSession) :
    Quiet s s.stop :=
  ⟨s.stop_sameFace, s.stop_undisturbed.sameOutbound⟩

theorem stop_calm (s : HttpTlsSession) :
    Calm s s.stop := by
  unfold stop
  split
  · exact .refl s
  · rename_i hRunning
    exact ⟨fun _ => ⟨rfl, rfl⟩,
      fun hStopped => absurd hStopped hRunning, rfl,
      fun _ => rfl, fun _ _ => ⟨rfl, rfl⟩⟩

theorem runCallback_calm
    (s : HttpTlsSession)
    (c : Callback) :
    Calm s (s.runCallback c) := by
  unfold runCallback
  simp only
  split
  · refine .trans ?_ (stop_calm _)
    exact calm_of_same rfl rfl rfl rfl
  · exact calm_of_same rfl rfl rfl rfl

theorem calm_writeOrder : WriteOrder Calm where
  refl := .refl
  trans := .trans
  callback := runCallback_calm
  stop := stop_calm
  buffers := by
    rintro s _ ⟨_, _, _, _, _, _, rfl⟩
    exact calm_of_same rfl rfl rfl rfl

theorem write_calm
    {sends : List Send}
    (hWrite : s.write sends = some s') :
    Calm s s' :=
  calm_writeOrder.write
    (fun _ => calm_of_same rfl rfl rfl rfl) hWrite

theorem read_quiet (s : HttpTlsSession) :
    Quiet s s.read := by
  unfold read
  split <;> constructor <;> constructor <;>
    first | rfl | exact fun _ => id

theorem read_calm (s : HttpTlsSession) :
    Calm s s.read := by
  unfold read
  split <;> exact calm_of_same rfl rfl rfl rfl

theorem submitPing_quiet
    (s : HttpTlsSession)
    (ec : ErrorCode) :
    Quiet s (s.submitPing ec) := by
  unfold submitPing
  split <;> constructor <;> constructor <;>
    first | rfl | exact fun _ => id

/- A closed socket still owes the handlers of its writes. -/
theorem close_quiet (s : HttpTlsSession) :
    Quiet s { s with sock := s.sock.close } := by
  constructor
  · constructor <;> rfl
  · constructor
    case outstanding =>
      simp only [outstanding, Socket.close, List.length_nil]
      omega
    case writes => exact nofun
    all_goals rfl

end HttpTlsSession

end Network

------------------------------------------------------------
-- Passes
------------------------------------------------------------

namespace Network

namespace HttpTlsSession

/-
  One of the things that a step is made of.  Unless the step
  stirs the pings, what it does is calm.
-/
inductive Pass
    (stirs : Bool)
    (sends : List Send)
    (s : HttpTlsSession) : HttpTlsSession → Prop
  | quiet
      {s' : HttpTlsSession}
      (hQuiet : Quiet s s')
      (hCalm : stirs = false → Calm s s') :
      Pass stirs sends s s'
  | callback (c : Callback) :
      Pass stirs sends s (s.runCallback c)
  | started : Pass stirs sends s s.invokeOnStart
  | registered (id : Int) :
      Pass stirs sends s (s.registerStream id)
  | write
      {s' : HttpTlsSession}
      (hWrite : s.write sends = some s') :
      Pass stirs sends s s'

/- A chain of passes. -/
def Passes
    (stirs : Bool)
    (sends : List Send) :
    HttpTlsSession → HttpTlsSession → Prop :=
  Relation.ReflTransGen (Pass stirs sends)

namespace Passes

variable {stirs : Bool}
variable {sends : List Send}
variable {s s' s'' : HttpTlsSession}

protected theorem refl (s : HttpTlsSession) :
    Passes stirs sends s s :=
  Relation.ReflTransGen.refl

protected theorem trans
    (hFirst : Passes stirs sends s s')
    (hSecond : Passes stirs sends s' s'') :
    Passes stirs sends s s'' :=
  Relation.ReflTransGen.trans hFirst hSecond

protected theorem quiet
    (hQuiet : Quiet s s')
    (hCalm : Calm s s') :
    Passes stirs sends s s' :=
  .single (.quiet hQuiet fun _ => hCalm)

/- A change that stirs the pings. -/
protected theorem stirring
    (hQuiet : Quiet s s') :
    Passes true sends s s' :=
  .single (.quiet hQuiet nofun)

protected theorem write
    (hWrite : s.write sends = some s') :
    Passes stirs sends s s' :=
  .single (.write hWrite)

end Passes

variable {stirs : Bool}
variable {sends : List Send}
variable {s s' : HttpTlsSession}

/- Only a write touches the outbound bytes. -/
theorem Pass.sameOutbound_or_write
    (hPass : Pass stirs sends s s') :
    SameOutbound s s' ∨ s.write sends = some s' := by
  cases hPass with
  | quiet hQuiet _ => exact .inl hQuiet.toSameOutbound
  | callback c =>
      exact .inl (s.runCallback_undisturbed c).sameOutbound
  | started =>
      left
      unfold invokeOnStart
      split <;> constructor <;>
        first | rfl | exact fun _ => id
  | registered assigned =>
      left
      constructor <;> first | rfl | exact fun _ => id
  | write hWrite => exact .inr hWrite

theorem passes_calm
    (hPasses : Passes false sends s s') :
    Calm s s' := by
  induction hPasses with
  | refl => exact .refl s
  | tail _ hPass ih =>
      apply ih.trans
      cases hPass with
      | quiet _ hCalm => exact hCalm rfl
      | callback c => exact runCallback_calm _ c
      | started =>
          unfold invokeOnStart
          split <;> exact calm_of_same rfl rfl rfl rfl
      | registered assigned =>
          exact calm_of_same rfl rfl rfl rfl
      | write hWrite => exact write_calm hWrite

/- The mutex is locked. -/
theorem hold_passes (s : HttpTlsSession) :
    Passes stirs sends s s.hold := by
  refine .quiet ⟨?_, ?_⟩ (calm_of_same rfl rfl rfl rfl) <;>
    constructor <;> first | rfl | exact fun _ => id

theorem unlock_passes (s : HttpTlsSession) :
    Passes stirs sends s s.unlock := by
  refine .quiet ⟨?_, ?_⟩ (calm_of_same rfl rfl rfl rfl) <;>
    constructor <;> first | rfl | exact fun _ => id

/- Reads and the handlers owed for them have changed. -/
theorem reads_passes
    (s : HttpTlsSession)
    (reads cancelledReads : Nat) :
    Passes stirs sends s
      { s with
        sock :=
          { s.sock with
            reads := reads
            cancelledReads := cancelledReads } } := by
  refine .quiet ⟨?_, ?_⟩ (calm_of_same rfl rfl rfl rfl) <;>
    constructor <;> first | rfl | exact fun _ => id

theorem stop_passes (s : HttpTlsSession) :
    Passes stirs sends s s.stop :=
  .quiet s.stop_quiet s.stop_calm

theorem upcalls_passes
    (s : HttpTlsSession)
    (upcalls : List Upcall) :
    Passes stirs sends s (s.upcalls upcalls) := by
  induction upcalls generalizing s with
  | nil => exact .refl s
  | cons upcall upcalls ih =>
      refine .trans ?_ (ih (s.upcall upcall))
      cases upcall with
      | callback c => exact .single (.callback c)
      | stop => exact s.stop_passes

theorem readHandler_passes
    {ec : ErrorCode}
    {n : Nat}
    {recv : Recv}
    (hHandler : s.readHandler ec n recv = some s') :
    Passes stirs recv.sends s s' := by
  have hHeld :
      Passes stirs recv.sends s
        (s.hold.upcalls recv.upcalls) :=
    s.hold_passes.trans (s.hold.upcalls_passes recv.upcalls)
  cases readHandled_of_some hHandler with
  | nothing _ => exact .refl s
  | failed _ _ => exact s.stop_passes
  | refused _ _ _ =>
      exact (hHeld.trans (stop_passes _)).trans
        (unlock_passes _)
  | ended _ _ hWrite _ =>
      have hWritten :=
        (hHeld.trans (unlock_passes _)).trans (.write hWrite)
      exact hWritten.trans (stop_passes _)
  | goesOn _ _ hWrite _ =>
      have hWritten :=
        (hHeld.trans (unlock_passes _)).trans (.write hWrite)
      exact hWritten.trans
        (.quiet (read_quiet _) (read_calm _))

/- The timer of the pings and its flag are private to them. -/
theorem ping_quiet
    (s : HttpTlsSession)
    (started : Bool)
    (ping : Timer) :
    Quiet s
      { s with
        pingIsStarted := started
        ping := ping } := by
  constructor <;> constructor <;>
    first | rfl | exact fun _ => id

theorem startPing_quiet (s : HttpTlsSession) :
    Quiet s s.startPing :=
  s.ping_quiet _ _

theorem pingHandler_passes
    {ec : ErrorCode}
    (hHandler : s.pingHandler ec sends = some s') :
    Passes true sends s s' := by
  rcases Option.map_eq_some_iff.mp hHandler with
    ⟨written, hWrite, rfl⟩
  have hWritten :
      Passes true sends s written :=
    (Passes.stirring (s.submitPing_quiet ec)).trans
      (.write hWrite)
  exact hWritten.trans (.stirring written.startPing_quiet)

theorem writeLocked_passes
    (hLocked : s.writeLocked sends = some s') :
    Passes stirs sends s s' := by
  rcases writeLocked_cases hLocked with
    ⟨_, rfl⟩ | ⟨_, written, hWrite, rfl⟩
  · exact .refl _
  · exact (s.hold_passes.trans (.write hWrite)).trans
      written.unlock_passes

theorem submit_passes
    {arguments : SubmitArguments}
    {submission : Submission}
    {result : ErrorCode × Int}
    (hSubmit :
      s.submit arguments submission = some (s', result)) :
    Passes stirs submission.sends s s' := by
  rcases submit_cases hSubmit with
    rfl | ⟨request, written, hLocked, rfl⟩
  · exact .refl _
  · have hRequest :
        Passes stirs submission.sends s
          (s.receiveRequest request) := by
      refine .quiet ⟨?_, ?_⟩
          (calm_of_same rfl rfl rfl rfl) <;>
        constructor <;> first | rfl | exact fun _ => id
    exact (hRequest.trans (writeLocked_passes hLocked)).trans
      (.single (.registered _))

theorem onSocketConnected_passes
    {connection : Connection}
    (hConnected : s.onSocketConnected connection = some s') :
    Passes true connection.sends s s' := by
  cases socketConnected_of_some hConnected with
  | @greets written _ hWrite =>
      have hGreeting : Quiet s s.greeting := by
        constructor <;> constructor <;>
          first | rfl | exact fun _ => id
      have hWritten :
          Passes true connection.sends s written :=
        (Passes.stirring hGreeting).trans (.write hWrite)
      exact (hWritten.trans
        (.stirring written.read_quiet)).trans
          (.stirring (startPing_quiet _))
  | again _ =>
      apply Passes.stirring
      constructor <;> constructor <;>
        first | rfl | exact fun _ => id

theorem startConnect_passes
    (s : HttpTlsSession)
    (connection : Connection) :
    Passes stirs sends s (s.startConnect connection).1 := by
  have hClose :
      Passes stirs sends s { s with sock := s.sock.close } :=
    .quiet s.close_quiet (calm_of_same rfl rfl rfl rfl)
  generalize hStart : (s.startConnect connection).1 = started
  cases connectStarted_of_eq hStart with
  | running _ => exact .refl s
  | closed _ => exact hClose
  | failed _ => exact hClose.trans (stop_passes _)

theorem startResolve_passes
    {connection : Connection}
    {ok : Bool}
    (hResolve : s.startResolve connection = some (s', ok)) :
    Passes true connection.sends s s' := by
  have hConnect :
      Passes true connection.sends s
        (s.startConnect connection).1 :=
    s.startConnect_passes connection
  cases resolveStarted_of_some hResolve with
  | unresolved _ => exact s.stop_passes
  | unconnected _ _ => exact hConnect.trans (stop_passes _)
  | connected _ _ hConnected =>
      exact (hConnect.trans
        (onSocketConnected_passes hConnected)).trans
          (.single .started)

end HttpTlsSession

end Network

------------------------------------------------------------
-- Steps
------------------------------------------------------------

namespace Network

namespace HttpTlsSession

variable {s s' : HttpTlsSession}

/- One cancelled write less is outstanding. -/
theorem outstanding_of_cancelled
    (hWrites : s.sock.cancelledWrites ≠ 0) :
    ∃ writes, s.sock.cancelledWrites = writes + 1 ∧
      { s with
        sock :=
          { s.sock with
            cancelledWrites := writes } }.outstanding + 1 =
        s.outstanding := by
  rcases Nat.exists_eq_succ_of_ne_zero hWrites with
    ⟨writes, hPending⟩
  refine ⟨writes, hPending, ?_⟩
  simp only [outstanding, hPending]
  omega

/-
  The handler of a write that completes.  The write is not
  outstanding any more.
-/
theorem stepQueued_of_completion
    {event : QueuedEvent}
    {ec : ErrorCode}
    (hCompletes : s.completion? event = some ec) :
    ∃ sock n,
      { s with sock := sock }.outstanding + 1 =
          s.outstanding ∧
        s.stepQueued event =
          { s with sock := sock }.writeHandler ec n
            event.sends := by
  unfold completion? at hCompletes
  split at hCompletes
  · rename_i ec' n sends
    rcases Option.ite_none_left_eq_some.mp hCompletes with
      ⟨hWrites, hCode⟩
    cases hCode
    rcases List.exists_cons_of_ne_nil hWrites with
      ⟨data, writes, hPending⟩
    refine ⟨(s.completeWrite n data writes).sock,
      min n data.length, ?_, ?_⟩
    · simp [outstanding, completeWrite, hPending]
      omega
    · simp only [stepQueued, step, hPending]
      rfl
  · rename_i sends
    rcases Option.ite_none_left_eq_some.mp hCompletes with
      ⟨hWrites, hCode⟩
    cases hCode
    rcases outstanding_of_cancelled hWrites with
      ⟨writes, hPending, hLess⟩
    refine ⟨_, 0, hLess, ?_⟩
    simp only [stepQueued, step, hPending]
    rfl
  · rename_i ec' n sends
    rcases Option.ite_none_left_eq_some.mp hCompletes with
      ⟨hWrites, hCode⟩
    cases hCode
    rcases outstanding_of_cancelled hWrites with
      ⟨writes, hPending, hLess⟩
    refine ⟨_, n, hLess, ?_⟩
    simp only [stepQueued, hPending]
    rfl
  · cases hCompletes

/- A step that completes no write is made of passes. -/
theorem step_passes
    {event : SessionEvent}
    (hNone : s.completion? (.session event) = none)
    (hStep : s.step event = some s') :
    Passes (QueuedEvent.session event).stirs event.sends
      s s' := by
  cases step_handled hStep with
  | idle event hSame => exact hSame.symm ▸ .refl s
  | startResolve connection ok hResolve =>
      exact startResolve_passes hResolve
  | readDone ec n recv reads hReads hHandler =>
      exact (s.reads_passes reads _).trans
        (readHandler_passes hHandler)
  | readCancelled recv reads hReads hSame =>
      exact hSame ▸ s.reads_passes _ reads
  | writeDone ec n sends data writes hWrites hHandler =>
      simp [completion?, hWrites] at hNone
  | writeCancelled sends writes hSame =>
      -- no such write is outstanding, so none is handled
      have hZero : s.sock.cancelledWrites = 0 := by
        by_contra hWrites
        simp [completion?, hWrites] at hNone
      simp only [step, hZero] at hStep
      exact Option.some.inj hStep ▸ .refl s
  | pingExpired sends ping hHandler =>
      exact .trans
        (.stirring (s.ping_quiet s.pingIsStarted ping))
        (pingHandler_passes hHandler)
  | pingCancelled sends ping hHandler =>
      exact .trans
        (.stirring (s.ping_quiet s.pingIsStarted ping))
        (pingHandler_passes hHandler)
  | write sends hWrite => exact .write hWrite
  | submit arguments submission result hSubmit =>
      exact submit_passes hSubmit
  | startPing hSame =>
      exact hSame ▸ .stirring s.startPing_quiet
  | cancelPing hSame =>
      exact hSame ▸ .stirring (s.ping_quiet _ _)
  | stop hSame => exact hSame ▸ s.stop_passes

theorem stepQueued_passes
    {event : QueuedEvent}
    (hNone : s.completion? event = none)
    (hStep : s.stepQueued event = some s') :
    Passes event.stirs event.sends s s' := by
  cases event with
  | session event => exact step_passes hNone hStep
  | read ec n recv =>
      simp only [stepQueued] at hStep
      split at hStep
      · exact Option.some.inj hStep ▸ .refl s
      · exact (s.reads_passes _ _).trans
          (readHandler_passes hStep)
  | write ec n sends =>
      have hZero : s.sock.cancelledWrites = 0 := by
        by_contra hWrites
        simp [completion?, hWrites] at hNone
      simp only [stepQueued, hZero] at hStep
      exact Option.some.inj hStep ▸ .refl s
  | ping ec sends =>
      simp only [stepQueued] at hStep
      split at hStep
      · exact Option.some.inj hStep ▸ .refl s
      · exact .trans
          (.stirring (s.ping_quiet s.pingIsStarted _))
          (pingHandler_passes hStep)

theorem writeHandler_calm
    {ec : ErrorCode}
    {n : Nat}
    {sends : List Send}
    (hHandler : s.writeHandler ec n sends = some s') :
    Calm s s' := by
  cases writeHandled_of_some hHandler with
  | stopped _ => exact s.stop_calm
  | cleared _ _ hWrite =>
      refine .trans ?_ (write_calm hWrite)
      exact calm_of_same rfl rfl rfl rfl

theorem stepQueued_calm
    {event : QueuedEvent}
    (hStirs : event.stirs = false)
    (hStep : s.stepQueued event = some s') :
    Calm s s' := by
  cases hCompletes : s.completion? event with
  | none =>
      have hPasses := stepQueued_passes hCompletes hStep
      rw [hStirs] at hPasses
      exact passes_calm hPasses
  | some ec =>
      rcases stepQueued_of_completion hCompletes with
        ⟨sock, n, _, hHandler⟩
      rw [hHandler] at hStep
      refine .trans ?_ (writeHandler_calm hStep)
      exact calm_of_same rfl rfl rfl rfl

end HttpTlsSession

end Network
