import XMLHttpRequest.Library.Refinement
import XMLHttpRequest.Session.Isolation
import XMLHttpRequest.Session.Queued

/-
  What a session hears of nghttp2.

  The streams of a session and the closures that it invokes
  for them are those of a smaller system, whose events are
  the callbacks and the registrations.  A step of the session
  does some of the events that are listed for it: where the
  connection ends in the middle, what nghttp2 would have
  reported then is not heard.

  Key definitions include:
    * `Network.Hearing`
    * `Network.QueuedEvent.streamEvents`
    * `Network.HttpTlsSession.Hears`

  Key theorems include:
    * `Network.HttpTlsSession.upcalls_hearing`
    * `Network.HttpTlsSession.stepQueued_hears`
    * `Network.HttpTlsSession.session_follows_callbacks`
-/

------------------------------------------------------------
-- Hearing
------------------------------------------------------------

namespace Network

/- The stream map, and the closures invoked so far. -/
structure Hearing where
  callbackState : CallbackState
  calls : List Call

/- Handle an event, and invoke what it invokes. -/
def Hearing.hear
    (heard : Hearing)
    (event : StreamEvent) : Hearing where
  callbackState := heard.callbackState.step event
  calls := heard.calls ++ heard.callbackState.calls event

/- Of the calls of a run, those that report stream `id`. -/
theorem CallbackState.trace_filter
    (id : StreamId)
    (s : CallbackState)
    (events : List StreamEvent) :
    (Unwinding.trace step calls s events).filter
        (·.isReadyOf id) = readyCalls id s events := by
  unfold readyCalls
  induction events generalizing s with
  | nil => rfl
  | cons event events ih =>
      rw [Unwinding.trace_cons, Unwinding.trace_cons,
        List.filter_append, ih]
      rfl

/- The call of a callback's closure, if it is one. -/
def Invocation.call? : Invocation → Option Call
  | .call c => some c
  | _ => none

def HttpTlsSession.hearing (s : HttpTlsSession) : Hearing where
  callbackState := s.toCallbackState
  calls := s.log.filterMap (·.call?)

/- The state and the calls of a run of events. -/
theorem Hearing.foldl_hear
    (heard : Hearing)
    (events : List StreamEvent) :
    events.foldl hear heard =
      { callbackState := heard.callbackState.run events
        calls :=
          heard.calls ++
            Unwinding.trace CallbackState.step
              CallbackState.calls heard.callbackState
              events } := by
  induction events generalizing heard with
  | nil => simp [CallbackState.run]
  | cons event events ih =>
      rw [List.foldl_cons, ih]
      simp [hear, CallbackState.run]

end Network

------------------------------------------------------------
-- Listed Events
------------------------------------------------------------

namespace Network

/- A stop inside of nghttp2 is no event of a stream. -/
def Upcall.streamEvents : Upcall → List StreamEvent
  | .callback c => [.callback c]
  | .stop => []

def upcallEvents (upcalls : List Upcall) : List StreamEvent :=
  upcalls.flatMap (·.streamEvents)

def sendEvents (sends : List Send) : List StreamEvent :=
  sends.flatMap fun send => upcallEvents send.upcalls

def SubmitArguments.streamEvents
    (_arguments : SubmitArguments)
    (submission : Submission) : List StreamEvent :=
  sendEvents submission.sends ++
    [.registered submission.assignedId.toNat]

/- What may happen to the streams in the course of an event. -/
def SessionEvent.streamEvents :
    SessionEvent → List StreamEvent
  | .readDone _ _ recv =>
      upcallEvents recv.upcalls ++ sendEvents recv.sends
  | .submit arguments submission =>
      arguments.streamEvents submission
  | event => sendEvents event.sends

def QueuedEvent.streamEvents :
    QueuedEvent → List StreamEvent
  | .session event => event.streamEvents
  | .read _ _ recv =>
      upcallEvents recv.upcalls ++ sendEvents recv.sends
  | .write _ _ sends => sendEvents sends
  | .ping _ sends => sendEvents sends

namespace HttpTlsSession

/- The session has heard some of the listed events. -/
def Hears
    (listed : List StreamEvent)
    (s s' : HttpTlsSession) : Prop :=
  Transition.Follows Hearing.hear listed s.hearing s'.hearing

variable {s s' s'' : HttpTlsSession}
variable {first second listed : List StreamEvent}

theorem Hears.of_same
    (hSame : s'.hearing = s.hearing) :
    Hears listed s s' := by
  unfold Hears
  rw [hSame]
  exact .refl _ _

theorem Hears.append
    (hFirst : Hears first s s')
    (hSecond : Hears second s' s'') :
    Hears (first ++ second) s s'' :=
  Transition.Follows.append hFirst hSecond

/- What comes after, or before, changes nothing. -/
theorem Hears.after
    (hHears : Hears listed s s')
    (hSame : s''.hearing = s'.hearing) :
    Hears listed s s'' := by
  unfold Hears
  rw [hSame]
  exact hHears

theorem Hears.since
    (hHears : Hears listed s' s'')
    (hSame : s'.hearing = s.hearing) :
    Hears listed s s'' := by
  unfold Hears
  rw [← hSame]
  exact hHears

theorem Hears.left
    (hHears : Hears first s s')
    (second : List StreamEvent) :
    Hears (first ++ second) s s' :=
  Transition.Follows.left hHears second

end HttpTlsSession

end Network

------------------------------------------------------------
-- Upcalls and Writes
------------------------------------------------------------

namespace Network

namespace HttpTlsSession

variable (s : HttpTlsSession)

@[simp] theorem stop_hearing : s.stop.hearing = s.hearing := by
  unfold hearing
  rw [stop_toCallbackState, stop_log]

theorem read_hearing : s.read.hearing = s.hearing := by
  unfold read
  split <;> rfl

theorem runCallback_hearing (c : Callback) :
    (s.runCallback c).hearing =
      s.hearing.hear (.callback c) := by
  have hCalls :
      ((s.toCallbackState.apply c).2.map Invocation.call
        ).filterMap (·.call?) =
        (s.toCallbackState.apply c).2 := by
    simp [List.filterMap_map, Invocation.call?]
  unfold hearing
  rw [runCallback_toCallbackState, runCallback_log,
    List.filterMap_append, hCalls]
  rfl

/- All upcalls of a call of nghttp2 are heard. -/
theorem upcalls_hearing (upcalls : List Upcall) :
    (s.upcalls upcalls).hearing =
      (upcallEvents upcalls).foldl Hearing.hear s.hearing := by
  induction upcalls generalizing s with
  | nil => rfl
  | cons upcall upcalls ih =>
      have hRest := ih (s.upcall upcall)
      cases upcall with
      | callback c =>
          refine hRest.trans ?_
          simp only [upcall, runCallback_hearing]
          rfl
      | stop =>
          refine hRest.trans ?_
          simp only [upcall, stop_hearing]
          rfl

theorem upcalls_hears (upcalls : List Upcall) :
    Hears (upcallEvents upcalls) s (s.upcalls upcalls) :=
  .all (s.upcalls_hearing upcalls).symm

/- Where the loop ends the rest of the list is not heard. -/
theorem sendLoop_hears (sends : List Send) :
    Hears (sendEvents sends) s (s.sendLoop sends).1 := by
  induction sends generalizing s with
  | nil => exact .of_same rfl
  | cons send sends ih =>
      have hUpcalls := s.upcalls_hears send.upcalls
      have hList :
          sendEvents (send :: sends) =
            upcallEvents send.upcalls ++ sendEvents sends :=
        List.flatMap_cons
      rw [hList]
      simp only [HttpTlsSession.sendLoop]
      split
      · exact (hUpcalls.left _).after
          (stop_hearing _)
      · exact hUpcalls.left _
      · split
        · exact (hUpcalls.left _).after rfl
        · exact hUpcalls.append (.since (ih _) rfl)

variable {s} {s' : HttpTlsSession}

theorem write_hears
    {sends : List Send}
    (hWrite : s.write sends = some s') :
    Hears (sendEvents sends) s s' := by
  have hPumped :
      Hears (sendEvents sends) s (s.pumped sends).1 := by
    refine (sendLoop_hears _ sends).since ?_
    unfold stagePending
    split <;> rfl
  rcases s.write_cases hWrite with
    ⟨_, rfl⟩ | ⟨_, _, _, ⟨_, rfl⟩ | ⟨_, rfl⟩⟩
  · exact .of_same rfl
  · exact hPumped.after rfl
  · exact hPumped.after rfl

end HttpTlsSession

end Network

------------------------------------------------------------
-- Handlers
------------------------------------------------------------

namespace Network

namespace HttpTlsSession

variable {s s' : HttpTlsSession}

theorem readHandler_hears
    {ec : ErrorCode}
    {n : Nat}
    {recv : Recv}
    (hHandler : s.readHandler ec n recv = some s') :
    Hears (upcallEvents recv.upcalls ++ sendEvents recv.sends)
      s s' := by
  have hHeld :
      Hears (upcallEvents recv.upcalls) s
        (s.hold.upcalls recv.upcalls) :=
    (s.hold.upcalls_hears recv.upcalls).since rfl
  cases readHandled_of_some hHandler with
  | nothing _ => exact .of_same rfl
  | failed _ _ => exact .of_same s.stop_hearing
  | refused _ _ _ =>
      exact (hHeld.left _).after
        (stop_hearing _)
  | ended _ _ hWrite _ =>
      have hWritten := hHeld.append
        ((write_hears hWrite).since rfl)
      exact hWritten.after (stop_hearing _)
  | goesOn _ _ hWrite _ =>
      have hWritten := hHeld.append
        ((write_hears hWrite).since rfl)
      exact hWritten.after (read_hearing _)

theorem writeHandler_hears
    {ec : ErrorCode}
    {n : Nat}
    {sends : List Send}
    (hHandler : s.writeHandler ec n sends = some s') :
    Hears (sendEvents sends) s s' := by
  cases writeHandled_of_some hHandler with
  | stopped _ => exact .of_same s.stop_hearing
  | cleared _ _ hWrite =>
      exact (write_hears hWrite).since rfl

theorem pingHandler_hears
    {ec : ErrorCode}
    {sends : List Send}
    (hHandler : s.pingHandler ec sends = some s') :
    Hears (sendEvents sends) s s' := by
  rcases Option.map_eq_some_iff.mp hHandler with
    ⟨written, hWrite, rfl⟩
  have hSubmitted :
      (s.submitPing ec).hearing = s.hearing := by
    unfold submitPing
    split <;> rfl
  exact ((write_hears hWrite).since hSubmitted).after rfl

/- What a request is registered under is heard last. -/
theorem submit_hears
    {arguments : SubmitArguments}
    {submission : Submission}
    {result : ErrorCode × Int}
    (hSubmit :
      s.submit arguments submission = some (s', result)) :
    Hears (arguments.streamEvents submission) s s' := by
  rcases submit_cases hSubmit with
    rfl | ⟨request, written, hLocked, rfl⟩
  · exact .of_same rfl
  · have hWritten :
        Hears (sendEvents submission.sends) s written := by
      rcases writeLocked_cases hLocked with
        ⟨_, rfl⟩ | ⟨_, locked, hWrite, rfl⟩
      · exact .of_same rfl
      · exact ((write_hears hWrite).since rfl).after rfl
    apply hWritten.append
    refine .all ?_
    simp [Hearing.hear, hearing, registerStream,
      CallbackState.step, CallbackState.calls]

theorem startResolve_hears
    {connection : Connection}
    {ok : Bool}
    (hResolve : s.startResolve connection = some (s', ok)) :
    Hears (sendEvents connection.sends) s s' := by
  have hConnect :
      (s.startConnect connection).1.hearing = s.hearing := by
    generalize hStart : (s.startConnect connection).1 =
      started
    cases connectStarted_of_eq hStart with
    | running _ => rfl
    | closed _ => rfl
    | failed _ => exact stop_hearing _
  cases resolveStarted_of_some hResolve with
  | unresolved _ => exact .of_same s.stop_hearing
  | unconnected _ _ =>
      exact .of_same ((stop_hearing _).trans hConnect)
  | @connected started _ _ hConnected =>
      have hInvoked :
          started.invokeOnStart.hearing =
            started.hearing := by
        unfold invokeOnStart
        split
        · simp only [hearing, List.filterMap_append]
          exact congrArg _ (List.append_nil _)
        · rfl
      refine (Hears.since ?_ hConnect).after hInvoked
      cases socketConnected_of_some hConnected with
      | greets _ hWrite =>
          exact ((write_hears hWrite).since rfl).after
            (read_hearing _)
      | again _ => exact .of_same rfl

end HttpTlsSession

end Network

------------------------------------------------------------
-- Steps and Runs
------------------------------------------------------------

namespace Network

namespace HttpTlsSession

variable {s s' : HttpTlsSession}

theorem step_hears
    {event : SessionEvent}
    (hStep : s.step event = some s') :
    Hears event.streamEvents s s' := by
  cases step_handled hStep with
  | idle event hSame => exact hSame ▸ .of_same rfl
  | startResolve connection ok hResolve =>
      exact startResolve_hears hResolve
  | readDone ec n recv reads hReads hHandler =>
      exact (readHandler_hears hHandler).since rfl
  | readCancelled recv reads hReads hSame =>
      exact hSame ▸ .of_same rfl
  | writeDone ec n sends data writes hWrites hHandler =>
      exact (writeHandler_hears hHandler).since rfl
  | writeCancelled sends writes hSame =>
      exact hSame ▸ .of_same (stop_hearing _)
  | pingExpired sends ping hHandler =>
      exact (pingHandler_hears hHandler).since rfl
  | pingCancelled sends ping hHandler =>
      exact (pingHandler_hears hHandler).since rfl
  | write sends hWrite => exact write_hears hWrite
  | submit arguments submission result hSubmit =>
      exact submit_hears hSubmit
  | startPing hSame => exact hSame ▸ .of_same rfl
  | cancelPing hSame => exact hSame ▸ .of_same rfl
  | stop hSame => exact hSame ▸ .of_same s.stop_hearing

theorem stepQueued_hears
    {event : QueuedEvent}
    (hStep : s.stepQueued event = some s') :
    Hears event.streamEvents s s' := by
  cases event with
  | session event => exact step_hears hStep
  | read ec n recv =>
      simp only [stepQueued] at hStep
      split at hStep
      · exact Option.some.inj hStep ▸ .of_same rfl
      · exact (readHandler_hears hStep).since rfl
  | write ec n sends =>
      simp only [stepQueued] at hStep
      split at hStep
      · exact Option.some.inj hStep ▸ .of_same rfl
      · exact (writeHandler_hears hStep).since rfl
  | ping ec sends =>
      simp only [stepQueued] at hStep
      split at hStep
      · exact Option.some.inj hStep ▸ .of_same rfl
      · exact (pingHandler_hears hStep).since rfl

/- The events that may happen to the streams in a run. -/
def runEvents (events : List QueuedEvent) :
    List StreamEvent :=
  events.flatMap (·.streamEvents)

theorem execQueued_hears
    {events : List QueuedEvent}
    (hRun :
      Transition.exec stepQueued s events = some s') :
    Hears (runEvents events) s s' :=
  Transition.follows_exec
    (fun _ _ _ hStep => stepQueued_hears hStep) hRun

/-
  The streams of a session after a run are those of a run of
  their own events, and the calls that the run logs are the
  calls of these events: some of those that nghttp2 has made
  or `submit` has led to, in their order.
-/
theorem session_follows_callbacks
    {events : List QueuedEvent}
    (hRun :
      Transition.exec stepQueued s events = some s') :
    ∃ heard : List StreamEvent,
      heard.Sublist (runEvents events) ∧
      s'.toCallbackState = s.toCallbackState.run heard ∧
      s'.log.filterMap (·.call?) =
        s.log.filterMap (·.call?) ++
          Unwinding.trace CallbackState.step
            CallbackState.calls s.toCallbackState heard := by
  rcases execQueued_hears hRun with
    ⟨heard, hListed, hHeard⟩
  rw [Hearing.foldl_hear, Hearing.mk.injEq] at hHeard
  exact ⟨heard, hListed, hHeard.1.symm, hHeard.2.symm⟩

/- A stream that is opened and closed in one read. -/
def briefStream (id : StreamId) : Recv where
  upcalls :=
    [.callback
        (.beginHeaders { streamId := id, type := .headers }),
      .callback (.streamClose id)]
  rv := 1

def briefRun : List QueuedEvent :=
  [.session (.startResolve h2Connection),
    .session (.readDone {} 1 (briefStream 2))]

theorem briefRun_returns :
    (Transition.exec stepQueued
      (create (ascii "a") (ascii "443") zeroGarbage)
      briefRun).isSome = true := by
  rfl

theorem session_follows_callbacks_brief :
    ∃ s' heard,
      Transition.exec stepQueued
          (create (ascii "a") (ascii "443") zeroGarbage)
          briefRun = some s' ∧
        List.Sublist heard (runEvents briefRun) ∧
        s'.toCallbackState = ({} : CallbackState).run heard := by
  rcases Option.isSome_iff_exists.mp briefRun_returns with
    ⟨s', hRun⟩
  rcases session_follows_callbacks hRun with
    ⟨heard, hListed, hState, _⟩
  exact ⟨s', heard, hRun, hListed, hState⟩

end HttpTlsSession

end Network
