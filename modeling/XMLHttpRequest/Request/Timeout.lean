import XMLHttpRequest.Request.Frames
import XMLHttpRequest.Request.Target
import XMLHttpRequest.Session.Halting

/-
  Whether a request both gets its response and times out.

  The timer of a request is never cancelled.  What keeps it
  from expiring after the response is that the ready closure
  of a synchronous request stops the io_service; that of an
  asynchronous one does not.

  Key definitions include:
    * `Network.Impl.Exclusive`
    * `Network.Impl.KeepsDeadline`
    * `Network.Impl.Idle`

  Key theorems include:
    * `Network.Impl.openWith_idle`
    * `Network.Impl.stepOpened_orderly`
    * `Network.Impl.leavesExclusive_iff`
    * `Network.Impl.exclusive_along_iff`
-/

------------------------------------------------------------
-- Opened Requests
------------------------------------------------------------

namespace Network

namespace Impl

variable (d : Impl)

/- A ready closure of the session has been invoked. -/
def answered : Bool :=
  d.session.any (·.answered)

/- The timer has not expired, or there was no response. -/
def Exclusive : Prop :=
  d.timeouts = [] ∨ d.answered = false

/- Every state that the step leaves is exclusive. -/
def LeavesExclusive (event : OpenedEvent) : Prop :=
  ∀ d', d.stepOpened event = some d' → d'.Exclusive

/-
  If the timer of an asynchronous request expires, no ready
  closure has been invoked before.
-/
def KeepsDeadline (event : OpenedEvent) : Prop :=
  d.expires event.1 = true → d.isAsync = true →
    d.answered = false

/- Nothing has been run for the request yet. -/
structure Idle : Prop where
  timeouts : d.timeouts = []
  session :
    ∀ s, d.session = some s →
      d.service = true ∧ s.stopped = true ∧
        s.sock.reads = 0 ∧ s.answered = false

/-
  The session is orderly for the mode of the request, and its
  io_service stopped if the timer has expired.
-/
def Orderly : Prop :=
  ∀ s, d.session = some s →
    d.service = true ∧
      (d.enter s).Orderly (! d.isAsync) ∧
      (d.timeouts ≠ [] → s.serviceStopped = true)

end Impl

end Network

------------------------------------------------------------
-- Opening
------------------------------------------------------------

namespace Network

namespace Impl

variable {d d' : Impl}

theorem Idle.orderly
    (hIdle : d.Idle) :
    d.Orderly := by
  intro s hSession
  rcases hIdle.session s hSession with
    ⟨hService, _, hReads, hSilent⟩
  refine ⟨hService, ⟨rfl, fun _ => .inr hReads, ?_⟩, ?_⟩
  · intro _ hAnswered
    exact absurd (hSilent.symm.trans hAnswered) (by decide)
  · exact fun hTimeouts => absurd hIdle.timeouts hTimeouts

theorem Idle.exclusive
    (hIdle : d.Idle) :
    d.Exclusive :=
  .inl hIdle.timeouts

theorem idle_of_none
    (hTimeouts : d.timeouts = [])
    (hNone : d.session = none) :
    d.Idle := by
  refine ⟨hTimeouts, ?_⟩
  intro s hSome
  rw [hNone] at hSome
  cases hSome

theorem setup_idle
    (hIdle : d.Idle)
    (setup : Setup) :
    (d.setup setup).Idle := by
  generalize hStart : d.setup setup = started
  cases setUp_of_eq hStart with
  | present _ => exact hIdle
  | plain hNone _ => exact idle_of_none hIdle.timeouts hNone
  | created _ _ _ | listening _ _ _ =>
      refine ⟨hIdle.timeouts, ?_⟩
      intro s hSome
      cases hSome
      exact ⟨rfl, rfl, rfl, rfl⟩

theorem callStateChange_idle
    (hIdle : d.Idle)
    (state : ReadyState) :
    (d.callStateChange state).Idle := by
  rcases d.callStateChange_cases state with
    ⟨_, hSame⟩ | ⟨s, _, _, hSession, hFrame⟩
  · exact hSame.symm ▸ hIdle
  · rcases hIdle.session s hSession with
      ⟨hService, hStopped, hReads, hSilent⟩
    rw [hFrame]
    refine ⟨hIdle.timeouts, ?_⟩
    intro s' hSome
    rw [Option.some.injEq] at hSome
    subst hSome
    refine ⟨hService, hStopped, hReads, ?_⟩
    have hQuiet :
        (s.toCallbackState.callStateChange state).any
          (·.isReady) = false := by
      unfold CallbackState.callStateChange
      split <;> rfl
    simpa [HttpTlsSession.answered, Invocation.isReady,
      Function.comp_def, hQuiet] using hSilent

theorem openPlain_idle
    (hIdle : d.Idle)
    (setup : Setup) :
    (d.openPlain setup).Idle := by
  unfold openPlain
  split
  · exact hIdle
  · apply callStateChange_idle
    have hSetup := setup_idle hIdle setup
    unfold setupTimer
    split
    · exact hSetup
    · exact ⟨hSetup.timeouts, hSetup.session⟩

/- Opening a request runs nothing. -/
theorem openWith_idle
    (hIdle : d.Idle)
    (method uri : Bytes)
    (async : Bool)
    (setup : Setup) :
    (d.openWith method uri async setup).Idle := by
  unfold openWith prepare
  cases proccessUri uri with
  | none => exact ⟨hIdle.timeouts, hIdle.session⟩
  | some elements =>
      refine openPlain_idle ?_ setup
      exact ⟨hIdle.timeouts, hIdle.session⟩

theorem setTimeout_idle
    (hIdle : d.Idle)
    (milliseconds : Nat) :
    (d.setTimeout milliseconds).Idle := by
  unfold setTimeout
  split
  · exact hIdle
  · exact ⟨hIdle.timeouts, hIdle.session⟩

theorem construction_idle (construction : Construction) :
    construction.request.Idle := by
  have hCreate
      (method url : Bytes)
      (async : Bool)
      (setup : Setup) :
      (create method url async setup).Idle := by
    refine setup_idle ?_ setup
    unfold prepare
    simp only
    split <;> exact idle_of_none rfl rfl
  cases construction with
  | empty => exact idle_of_none rfl rfl
  | create method url async setup =>
      exact hCreate method url async setup
  | createFromView method url async setup =>
      exact hCreate _ _ async setup

end Impl

end Network

------------------------------------------------------------
-- Steps
------------------------------------------------------------

namespace Network

namespace Impl

variable {d d' : Impl}

/- The answers of a request are those of its session. -/
theorem answered_of_session
    {s : HttpTlsSession}
    (hSession : d.session = some s) :
    d.answered = s.answered := by
  simp [answered, hSession]

theorem Unmoved.orderly
    (hUnmoved : Unmoved d d')
    (hOrderly : d.Orderly) :
    d'.Orderly := by
  intro s' hSession
  rcases hUnmoved.session s' hSession with
    ⟨s, _, _, _, hBefore, rfl⟩
  rcases hOrderly s hBefore with ⟨hSet, hInner, hTimeouts⟩
  refine ⟨hUnmoved.service.trans hSet, ?_, ?_⟩
  · rw [hUnmoved.isAsync]
    exact ⟨congrArg (! ·) hUnmoved.isAsync, hInner.idle,
      hInner.answered⟩
  · rw [hUnmoved.timeouts]
    exact hTimeouts

theorem Unmoved.exclusive
    (hUnmoved : Unmoved d d')
    (hExclusive : d.Exclusive) :
    d'.Exclusive := by
  apply hExclusive.imp hUnmoved.timeouts.trans
  intro hSilent
  cases hSession : d'.session with
  | none => simp [answered, hSession]
  | some s' =>
      rcases hUnmoved.session s' hSession with
        ⟨s, _, _, _, hBefore, rfl⟩
      rw [answered_of_session hBefore] at hSilent
      exact (answered_of_session hSession).trans hSilent

/- A request whose io_service still runs has not timed out. -/
theorem timeouts_of_running
    {s : HttpTlsSession}
    (hOrderly : d.Orderly)
    (hSession : d.session = some s)
    (hGoesOn : d.serviceStopped = false) :
    d.timeouts = [] := by
  by_contra hTimeouts
  have hStopped := (hOrderly s hSession).2.2 hTimeouts
  simp [serviceStopped, hSession, hStopped] at hGoesOn

/- Steps keep the order in which things are stopped. -/
theorem stepOpened_orderly
    (hOrderly : d.Orderly)
    {event : OpenedEvent}
    (hStep : d.stepOpened event = some d') :
    d'.Orderly := by
  rcases stepOpened_cases hStep with
    hSettled | ⟨hGoesOn, s, jobs, hSession, hRuns⟩ |
      ⟨s, timer, timeouts, hSession, _, rfl⟩
  · exact hSettled.unmoved.orderly hOrderly
  · rcases hRuns.runsSession with ⟨events, s', _, _, hExec, rfl⟩
    rcases hOrderly s hSession with ⟨hSet, hInner, _⟩
    have hAfter := HttpTlsSession.exec_orderly hInner hExec
    have hTimeouts :=
      timeouts_of_running hOrderly hSession hGoesOn
    intro s₂ hSome
    rw [Option.some.injEq] at hSome
    subst hSome
    exact ⟨hSet, ⟨rfl, hAfter.idle, hAfter.answered⟩,
      absurd hTimeouts⟩
  · intro s' hSome
    rw [Option.some.injEq] at hSome
    subst hSome
    have hStopped :
        ((d.enter { s with serviceStopped := true }).stop
          ).serviceStopped = true :=
      HttpTlsSession.stop_serviceStopped fun _ => rfl
    exact ⟨(hOrderly s hSession).1,
      ⟨rfl, fun _ => .inl hStopped, fun _ _ => hStopped⟩,
      fun _ => hStopped⟩

/- Stopping the session gives no answer. -/
theorem stop_answered
    (d : Impl)
    (s : HttpTlsSession) :
    ((d.enter { s with serviceStopped := true }).stop
      ).answered = s.answered := by
  rw [HttpTlsSession.answered, HttpTlsSession.stop_log]
  rfl

/- The handler of the timer aborts an opened request. -/
theorem stepOpened_of_expires
    {s : HttpTlsSession}
    (hService : d.service = true)
    (hSession : d.session = some s)
    {event : OpenedEvent}
    (hExpires : d.expires event.1 = true) :
    ∃ d', d.stepOpened event = some d' ∧
      d'.timeouts ≠ [] ∧ d'.answered = d.answered := by
  rcases event with ⟨event, hOpened⟩
  cases event with
  | timer code =>
      simp only [expires, Bool.and_eq_true,
        Bool.not_eq_true', decide_eq_true_eq,
        ne_eq] at hExpires
      rcases hExpires with ⟨⟨hOk, hWaits⟩, hGoesOn⟩
      rcases Nat.exists_eq_succ_of_ne_zero hWaits with
        ⟨waits, hPending⟩
      have hStep :
          d.step (.timer code) =
            { d with
              timer := { d.timer with waits := waits }
              timeouts :=
                d.timeouts ++ [d.timerCallback] }.abort := by
        simp [step, unlessStopped, timerDone, runTimer,
          hGoesOn, hPending, hOk]
      refine ⟨_, hStep.trans (abort_eq hService hSession),
        List.append_ne_nil_of_right_ne_nil _
          (List.cons_ne_nil _ _), ?_⟩
      rw [answered_of_session hSession]
      exact (answered_of_session rfl).trans
        (d.stop_answered s)
  | _ => cases hExpires

theorem goesOn_of_expires
    {event : RequestEvent}
    (hExpires : d.expires event = true) :
    d.serviceStopped = false := by
  cases event with
  | timer code =>
      simp only [expires, Bool.and_eq_true,
        Bool.not_eq_true'] at hExpires
      exact hExpires.2
  | _ => cases hExpires

/- The answer to a synchronous request stops its io_service. -/
theorem silent_of_synchronous
    (hOrderly : d.Orderly)
    (hSync : d.isAsync = false)
    (hGoesOn : d.serviceStopped = false) :
    d.answered = false := by
  cases hSession : d.session with
  | none => simp [answered, hSession]
  | some s =>
      rw [answered_of_session hSession]
      cases hAnswered : s.answered with
      | false => rfl
      | true =>
          have hStopped : s.serviceStopped = true :=
            (hOrderly s hSession).2.1.answered
              (by rw [hSync]; rfl) hAnswered
          simp [serviceStopped, hSession,
            hStopped] at hGoesOn

/- Only such a step leaves an exclusive request. -/
theorem leavesExclusive_iff
    (hOrderly : d.Orderly)
    (hExclusive : d.Exclusive)
    (event : OpenedEvent) :
    d.LeavesExclusive event ↔ d.KeepsDeadline event := by
  constructor
  · intro hLeaves hExpires _
    cases hSession : d.session with
    | none => simp [answered, hSession]
    | some s =>
        rcases stepOpened_of_expires
            (hOrderly s hSession).1 hSession hExpires with
          ⟨d', hStep, hTimeouts, hSame⟩
        exact hSame.symm.trans
          ((hLeaves d' hStep).resolve_left hTimeouts)
  · intro hKeeps d' hStep
    rcases stepOpened_cases hStep with
      hSettled | ⟨hGoesOn, s, jobs, hSession, hRuns⟩ |
        ⟨s, timer, timeouts, hSession, hExpired, rfl⟩
    · exact hSettled.unmoved.exclusive hExclusive
    · rcases hRuns.runsSession with ⟨_, _, _, _, _, rfl⟩
      have hNone :=
        timeouts_of_running hOrderly hSession hGoesOn
      exact .inl hNone
    · have hSame :
          d.answered = false →
            ((d.enter
              { s with serviceStopped := true }).stop
              ).answered = false := by
        rw [stop_answered, answered_of_session hSession]
        exact id
      rcases hExpired with rfl | hExpires
      · exact hExclusive.imp_right
          ((answered_of_session rfl).trans <| hSame ·)
      · refine .inr ((answered_of_session rfl).trans
          (hSame ?_))
        cases hAsync : d.isAsync with
        | true => exact hKeeps hExpires hAsync
        | false =>
            exact silent_of_synchronous hOrderly hAsync
              (goesOn_of_expires hExpires)

end Impl

end Network

------------------------------------------------------------
-- Runs
------------------------------------------------------------

namespace Network

namespace Impl

/-
  Every state that a run of an opened request reaches is
  exclusive exactly when the timer of an asynchronous request
  never expires after a ready closure has been invoked.
-/
theorem exclusive_along_iff
    (d : Impl)
    (hIdle : d.Idle)
    (events : List OpenedEvent) :
    Transition.Along stepOpened LeavesExclusive d events ↔
      Transition.Along stepOpened KeepsDeadline d events := by
  apply Transition.along_congr
    (I := fun d => d.Orderly ∧ d.Exclusive)
  · intro d event hInv
    exact leavesExclusive_iff hInv.1 hInv.2 event
  · intro d event d' hInv hLeaves hStep
    exact ⟨stepOpened_orderly hInv.1 hStep,
      hLeaves d' hStep⟩
  · exact ⟨hIdle.orderly, hIdle.exclusive⟩

theorem stepOpened_isAsync
    {d d' : Impl}
    {event : OpenedEvent}
    (hStep : d.stepOpened event = some d') :
    d'.isAsync = d.isAsync := by
  rcases stepOpened_cases hStep with
    hSettled | ⟨_, _, _, _, hRuns⟩ | ⟨_, _, _, _, _, rfl⟩
  · exact hSettled.isAsync
  · rcases hRuns.runsSession with ⟨_, _, _, _, _, rfl⟩
    rfl
  · rfl

/- No event needs to be excluded for a synchronous request. -/
theorem keepsDeadline_of_synchronous
    (d : Impl)
    (hSync : d.isAsync = false)
    (events : List OpenedEvent) :
    Transition.Along stepOpened KeepsDeadline d events := by
  induction events generalizing d with
  | nil => trivial
  | cons event events ih =>
      constructor
      · intro _ hAsync
        exact absurd (hSync.symm.trans hAsync) (by decide)
      · intro d' hStep
        exact ih d' ((stepOpened_isAsync hStep).trans hSync)

/- A request with a timeout, opened in either mode. -/
def timedRequest (async : Bool) : Impl :=
  (({} : Impl).setTimeout 100).openWith (ascii "GET")
    (ascii "https://a.com/") async freshSetup

theorem timedRequest_idle (async : Bool) :
    (timedRequest async).Idle :=
  openWith_idle
    (setTimeout_idle (construction_idle .empty) 100)
    _ _ async freshSetup

/- The request is sent and its stream closed. -/
def responseRun : List OpenedEvent :=
  [⟨.setOnReadyCallback (some 1), rfl⟩,
    ⟨.send, rfl⟩,
    ⟨.job { connection := HttpTlsSession.h2Connection },
      rfl⟩,
    ⟨.job { submission := { assignedId := 1 } }, rfl⟩,
    ⟨.handler
      (.readDone {} 1
        { upcalls := [.callback (.streamClose 1)]
          rv := 1 }), rfl⟩]

def expiry : OpenedEvent :=
  ⟨.timer {}, rfl⟩

theorem exclusive_along_synchronous :
    Transition.Along stepOpened LeavesExclusive
      (timedRequest false) (responseRun ++ [expiry]) :=
  (exclusive_along_iff (timedRequest false)
    (timedRequest_idle false) _).mpr
    (keepsDeadline_of_synchronous _ (by decide +kernel) _)

/- The timer of an answered asynchronous request expires. -/
theorem answered_then_timeout :
    ¬ Transition.Along stepOpened LeavesExclusive
      (timedRequest true) (responseRun ++ [expiry]) := by
  intro hAlong
  have hEnd :
      ((Transition.exec stepOpened (timedRequest true)
        responseRun).map fun d =>
          (d.stepOpened expiry).map fun d' =>
            (d'.timeouts.isEmpty, d'.answered)) =
        some (some (false, true)) := by
    decide +kernel
  rcases Option.map_eq_some_iff.mp hEnd with
    ⟨d, hRun, hNext⟩
  rcases Option.map_eq_some_iff.mp hNext with
    ⟨d', hStep, hState⟩
  simp only [Prod.mk.injEq] at hState
  rcases hAlong.last hRun d' hStep with hNone | hSilent
  · simp [hNone] at hState
  · exact absurd (hState.2.symm.trans hSilent) (by decide)

end Impl

end Network
