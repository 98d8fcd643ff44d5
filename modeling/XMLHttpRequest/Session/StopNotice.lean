import XMLHttpRequest.Library.Transition
import XMLHttpRequest.Session.Closures

/-
  How often the stop callback is invoked.

  `stop` names the type of the callback where it means to
  call the function object, so no step invokes it.

  Key definitions include:
    * `Network.HttpTlsSession.stopsRunning`
    * `Network.HttpTlsSession.NotifiesStop`
    * `Network.HttpTlsSession.GoesOn`

  Key theorems include:
    * `Network.HttpTlsSession.stepQueued_notices`
    * `Network.HttpTlsSession.notifiesStop_along_iff`
-/

------------------------------------------------------------
-- Stops of a Running Session
------------------------------------------------------------

namespace Network

/- A connection attempt that makes a session run. -/
def QueuedEvent.connects : QueuedEvent → Bool
  | session (.startResolve connection) =>
      connection.succeeds
  | _ => false

namespace HttpTlsSession

/-
  A step to `s'` has stopped a running session: one that ran
  before or that it has connected.  It does so once, as
  nothing connects a session after it has been stopped.
-/
def stopsRunning
    (s : HttpTlsSession)
    (event : QueuedEvent)
    (s' : HttpTlsSession) : Bool :=
  (! s.stopped || event.connects) && s'.stopped

/- How often the stop callback has been invoked. -/
def notices (s : HttpTlsSession) (closure : Nat) : Nat :=
  s.log.count (.stopped closure)

/-
  The stop callback is invoked once by a step that stops a
  running session, and by no other.
-/
def NotifiesStop
    (closure : Nat)
    (s : HttpTlsSession)
    (event : QueuedEvent) : Prop :=
  ∀ s', s.stepQueued event = some s' →
    s'.notices closure =
      s.notices closure +
        if s.stopsRunning event s' then 1 else 0

/- The step stops no running session. -/
def GoesOn
    (s : HttpTlsSession)
    (event : QueuedEvent) : Prop :=
  ∀ s', s.stepQueued event = some s' →
    s.stopsRunning event s' = false

variable {s s' : HttpTlsSession}

/- The stop callback is not among what a step invokes. -/
theorem stepQueued_notices
    {event : QueuedEvent}
    (hStep : s.stepQueued event = some s')
    (closure : Nat) :
    s'.notices closure = s.notices closure := by
  rcases (stepQueued_extends hStep).log with
    ⟨entries, hLog, hInstalled⟩
  have hNone : entries.count (.stopped closure) = 0 :=
    List.count_eq_zero.mpr fun hEntry =>
      hInstalled _ hEntry
  rw [notices, notices, hLog, List.count_append, hNone,
    Nat.add_zero]

theorem execQueued_notices
    {events : List QueuedEvent}
    (hRun :
      Transition.exec stepQueued s events = some s')
    (closure : Nat) :
    s'.notices closure = s.notices closure :=
  Transition.invariant
    (I := fun reached =>
      reached.notices closure = s.notices closure)
    (fun _ _ _ hSame _ hStep =>
      (stepQueued_notices hStep closure).trans hSame)
    rfl (Transition.along_true _ _) hRun

theorem notifiesStop_iff
    (s : HttpTlsSession)
    (closure : Nat)
    (event : QueuedEvent) :
    NotifiesStop closure s event ↔ s.GoesOn event := by
  refine forall_congr' fun s' => imp_congr_right fun hStep => ?_
  rw [stepQueued_notices hStep]
  cases s.stopsRunning event s' with
  | true => simp
  | false => simp

end HttpTlsSession

end Network

------------------------------------------------------------
-- Runs
------------------------------------------------------------

namespace Network

namespace HttpTlsSession

/-
  No run invokes a stop callback.  One that is set is invoked
  once for every stop of the running session exactly in the
  runs in which nothing stops it while it runs.
-/
theorem notifiesStop_along_iff
    (s : HttpTlsSession)
    (closure : Nat)
    (events : List QueuedEvent) :
    (∀ s',
      Transition.exec stepQueued
          { s with onStopCb := some closure } events =
        some s' →
      s'.notices closure = s.notices closure) ∧
    (Transition.Along stepQueued (NotifiesStop closure)
        { s with onStopCb := some closure } events ↔
      Transition.Along stepQueued GoesOn
        { s with onStopCb := some closure } events) := by
  constructor
  · intro s' hRun
    exact execQueued_notices hRun closure
  · exact Transition.along_congr (I := fun _ => True)
      (fun s event _ => s.notifiesStop_iff closure event)
      (fun _ _ _ _ _ _ => trivial) trivial

/- A session for `a:443` with a stop callback. -/
def notifiedSession : HttpTlsSession :=
  { create (ascii "a") (ascii "443") zeroGarbage with
    onStopCb := some 0 }

/- It is connected and stopped, and nobody is told. -/
theorem stop_not_notified :
    ¬ Transition.Along stepQueued (NotifiesStop 0)
      notifiedSession
      [.session (.startResolve h2Connection),
        .session .stop] := by
  intro hAlong
  have hStops :
      (notifiedSession.stepQueued
          (.session (.startResolve h2Connection))).map
        (fun s =>
          (s.stopped, s.notices 0, s.stop.stopped,
            s.stop.notices 0)) =
        some (false, 0, true, 0) := by
    decide +kernel
  rcases Option.map_eq_some_iff.mp hStops with
    ⟨running, hStep, hState⟩
  simp only [Prod.mk.injEq] at hState
  have hNotifies :
      running.stop.notices 0 =
        running.notices 0 +
          if running.stopsRunning (.session .stop)
              running.stop then 1 else 0 :=
    (hAlong.2 running hStep).1 running.stop rfl
  simp [stopsRunning, hState.1, hState.2.1, hState.2.2.2]
    at hNotifies

end HttpTlsSession

end Network
