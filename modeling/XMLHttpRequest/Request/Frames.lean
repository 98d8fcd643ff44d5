import XMLHttpRequest.Request.System
import XMLHttpRequest.Session.Frames

/-
  What the operations of a request leave alone.

  All that the io_service runs for a request, but for the
  handler of the timer, is a run of its session.

  Key definitions include:
    * `Network.Impl.SetUp`
    * `Network.Impl.RunsSession`
    * `Network.Impl.AbsorbsRun`
    * `Network.Impl.Unmoved`
    * `Network.Impl.Settled`

  Key theorems include:
    * `Network.Impl.absorb_eq`
    * `Network.Impl.callStateChange_cases`
    * `Network.Impl.abort_cases`
    * `Network.Impl.runJob_cases`
    * `Network.Impl.runHandler_cases`
    * `Network.Impl.timerDone_cases`
    * `Network.Impl.stepOpened_cases`
-/

------------------------------------------------------------
-- Closures
------------------------------------------------------------

namespace Network

namespace Impl

variable (d : Impl)

/- Closures change the state and the response at most. -/
theorem foldl_notice_eq (invocations : List Invocation) :
    ∃ readyState response,
      invocations.foldl notice d =
        { d with
          readyState := readyState
          response := response } := by
  induction invocations generalizing d with
  | nil => exact ⟨d.readyState, d.response, rfl⟩
  | cons invocation invocations ih =>
      rcases ih (d.notice invocation) with
        ⟨readyState, response, hFold⟩
      refine ⟨readyState, response, hFold.trans ?_⟩
      unfold notice
      split <;> rfl

theorem absorb_eq
    (seen : Nat)
    (s : HttpTlsSession) :
    ∃ readyState response,
      d.absorb seen s =
        { d with
          session := some s
          readyState := readyState
          response := response } := by
  rcases d.foldl_notice_eq (s.log.drop seen) with
    ⟨readyState, response, hFold⟩
  exact ⟨readyState, response, by rw [absorb, hFold]⟩

/- Telling a state logs an invocation at most. -/
theorem callStateChange_cases (state : ReadyState) :
    (d.session = none ∧ d.callStateChange state = d) ∨
    ∃ s readyState response,
      d.session = some s ∧
      d.callStateChange state =
        { d with
          session :=
            some
              { s with
                log :=
                  s.log ++
                    (s.toCallbackState.callStateChange
                      state).map .call }
          readyState := readyState
          response := response } := by
  unfold callStateChange
  split
  · rename_i hNone
    exact .inl ⟨hNone, rfl⟩
  · rename_i s hSession
    rcases d.absorb_eq s.log.length _ with
      ⟨readyState, response, hFrame⟩
    exact .inr ⟨s, readyState, response, hSession, hFrame⟩

/-
  All that a setup does: a session that is there stays, and
  one that is created is given callbacks in state UNSENT.
-/
inductive SetUp (setup : Setup) : Impl → Prop
  | present
      (hPresent : d.session.isSome = true) :
      SetUp setup d
  | plain
      (hNone : d.session = none)
      (hPlain : setup.tls = false) :
      SetUp setup { d with service := true }
  | created
      (hNone : d.session = none)
      (hTls : setup.tls = true)
      (hSent : d.readyState ≠ .unsent) :
      SetUp setup
        { d with
          service := true
          session :=
            some
              (HttpTlsSession.create d.addr d.port
                setup.garbage) }
  | listening
      (hNone : d.session = none)
      (hTls : setup.tls = true)
      (hUnsent : d.readyState = .unsent) :
      SetUp setup
        { d with
          service := true
          session :=
            some
              { HttpTlsSession.create d.addr d.port
                  setup.garbage with
                onReadyStateChange := some .initial
                onStopCb := stopService } }

variable {d} in
theorem setUp_of_eq
    {d' : Impl}
    {setup : Setup}
    (hSetup : d.setup setup = d') :
    d.SetUp setup d' := by
  rw [← hSetup]
  unfold Impl.setup
  cases hSession : d.session with
  | some s =>
      refine .present ?_
      rw [hSession]
      rfl
  | none =>
      simp only [setupSession]
      cases hTls : setup.tls with
      | false => exact .plain hSession hTls
      | true =>
          simp only [if_true, initCallbacks]
          by_cases hUnsent : d.readyState = .unsent
          · rw [if_neg (not_not.mpr hUnsent)]
            exact .listening hSession hTls hUnsent
          · rw [if_pos hUnsent]
            exact .created hSession hTls hUnsent

end Impl

end Network

------------------------------------------------------------
-- Runs of the Session
------------------------------------------------------------

namespace Network

namespace Impl

/-
  The request has let its session handle some events, and is
  as before but for what closures change.
-/
def RunsSession
    (d d' : Impl)
    (s : HttpTlsSession) : Prop :=
  ∃ events s' readyState response,
    Transition.exec HttpTlsSession.step (d.enter s) events =
      some s' ∧
    d' =
      { d with
        session := some s'
        readyState := readyState
        response := response }

/-
  The same, with the closures that were invoked: the request
  has absorbed the session of the run.
-/
def AbsorbsRun
    (d d' : Impl)
    (s : HttpTlsSession) : Prop :=
  ∃ events s',
    Transition.exec HttpTlsSession.step (d.enter s) events =
      some s' ∧
    d' = d.absorb s.log.length s'

variable {d d' : Impl}

theorem AbsorbsRun.runsSession
    {s : HttpTlsSession}
    (hRuns : d.AbsorbsRun d' s) :
    d.RunsSession d' s := by
  rcases hRuns with ⟨events, s', hExec, rfl⟩
  rcases d.absorb_eq s.log.length s' with
    ⟨readyState, response, hFrame⟩
  exact ⟨events, s', readyState, response, hExec, hFrame⟩

theorem absorbsRun_of_onSession
    {s : HttpTlsSession}
    {operation : HttpTlsSession → Option HttpTlsSession}
    (events :
      ∀ s s', operation s = some s' →
        ∃ events,
          Transition.exec HttpTlsSession.step s events =
            some s')
    (hOn : d.onSession s operation = some d') :
    d.AbsorbsRun d' s := by
  rcases Option.map_eq_some_iff.mp hOn with
    ⟨s', hOperation, hAbsorb⟩
  rcases events _ s' hOperation with ⟨events, hExec⟩
  exact ⟨events, s', hExec, hAbsorb.symm⟩

/- A single event is a run. -/
theorem absorbsRun_of_step
    {s : HttpTlsSession}
    (event : SessionEvent)
    (hOn : d.onSession s (·.step event) = some d') :
    d.AbsorbsRun d' s := by
  refine absorbsRun_of_onSession ?_ hOn
  intro s s' hStep
  refine ⟨[event], ?_⟩
  simpa [Transition.exec] using hStep

/- The service stops first, and then the session. -/
theorem abort_eq
    {s : HttpTlsSession}
    (hService : d.service = true)
    (hSession : d.session = some s) :
    d.abort =
      some
        { d with
          session :=
            some
              (d.enter
                { s with serviceStopped := true }).stop } := by
  have hLog :
      ((d.enter { s with serviceStopped := true }).stop).log =
        s.log :=
    HttpTlsSession.stop_log _
  simp only [abort, hService, hSession, onSession, absorb,
    Option.map_some, hLog, List.drop_length, List.foldl_nil]

theorem abort_cases (hAbort : d.abort = some d') :
    ∃ s, d.session = some s ∧
      d' =
        { d with
          session :=
            some
              (d.enter
                { s with serviceStopped := true }).stop } := by
  have hCases := hAbort
  unfold abort at hCases
  split at hCases
  · rename_i s hService hSession
    rw [abort_eq hService hSession,
      Option.some.injEq] at hAbort
    exact ⟨s, hSession, hAbort.symm⟩
  · cases hCases

/- A submission, and the stop that follows a failed one. -/
theorem exec_submit
    {s submitted s' : HttpTlsSession}
    {arguments : SubmitArguments}
    {submission : Submission}
    {ec : ErrorCode}
    {id : Int}
    (hSubmit :
      s.submit arguments submission =
        some (submitted, ec, id))
    (hEnd :
      (if id < 0 then submitted.stop else submitted) = s') :
    ∃ events,
      Transition.exec HttpTlsSession.step s events =
        some s' := by
  have hStep :
      s.step (.submit arguments submission) =
        some submitted := by
    simp [HttpTlsSession.step, hSubmit]
  split at hEnd
  · refine ⟨[.submit arguments submission, .stop], ?_⟩
    rw [Transition.exec_cons_eq_some_iff]
    exact ⟨submitted, hStep, congrArg some hEnd⟩
  · refine ⟨[.submit arguments submission], ?_⟩
    rw [Transition.exec_cons_eq_some_iff]
    exact ⟨submitted, hStep, congrArg some hEnd⟩

theorem submitRequest_absorbsRun
    {s : HttpTlsSession}
    {body : Bool}
    {submission : Submission}
    (hSubmit :
      d.submitRequest s body submission = some d') :
    d.AbsorbsRun d' s := by
  unfold submitRequest at hSubmit
  split at hSubmit
  · exact absorbsRun_of_step .stop hSubmit
  · rename_i method _
    refine absorbsRun_of_onSession ?_ hSubmit
    intro s s' hRun
    rcases Option.map_eq_some_iff.mp hRun with
      ⟨⟨submitted, ec, id⟩, hSubmitted, hEnd⟩
    exact exec_submit hSubmitted hEnd

/- A job does nothing or lets the session run. -/
theorem runJob_cases
    {outcome : JobOutcome}
    {job : Job}
    (hJob : d.runJob outcome job = some d') :
    ∃ s, d.session = some s ∧
      (d' = d ∨ d.AbsorbsRun d' s) := by
  cases job with
  | connect =>
      simp only [runJob, connect] at hJob
      split at hJob
      · cases hJob
      · rename_i s hSession
        refine ⟨s, hSession, ?_⟩
        split at hJob
        · exact .inr
            (absorbsRun_of_step (.startResolve _) hJob)
        · exact .inl (Option.some.inj hJob).symm
  | fetch =>
      simp only [runJob, fetch] at hJob
      split at hJob
      · cases hJob
      · rename_i s hSession
        refine ⟨s, hSession, ?_⟩
        split at hJob
        · exact .inl (Option.some.inj hJob).symm
        · exact .inr (submitRequest_absorbsRun hJob)
  | fetchWithBody =>
      simp only [runJob, fetchWithBody] at hJob
      split at hJob
      · cases hJob
      · rename_i s hSession
        exact ⟨s, hSession,
          .inr (submitRequest_absorbsRun hJob)⟩

theorem runHandler_cases
    {event : SessionEvent}
    (hHandler : d.runHandler event = some d') :
    d' = d ∨
    ∃ s, d.session = some s ∧ d.AbsorbsRun d' s := by
  unfold runHandler at hHandler
  split at hHandler
  · exact .inl (Option.some.inj hHandler).symm
  · rename_i s hSession
    exact .inr
      ⟨s, hSession, absorbsRun_of_step event hHandler⟩

theorem nextJob_cases
    {outcome : JobOutcome}
    (hJob : d.nextJob outcome = some d') :
    d' = d ∨
    ∃ jobs, d' = { d with jobs := jobs } ∨
      ∃ s, d.session = some s ∧
        { d with jobs := jobs }.AbsorbsRun d' s := by
  unfold nextJob at hJob
  split at hJob
  · exact .inl (Option.some.inj hJob).symm
  · rename_i job jobs _
    refine .inr ⟨jobs, ?_⟩
    rcases runJob_cases hJob with ⟨s, hSession, hCases⟩
    exact hCases.imp_right fun hRuns => ⟨s, hSession, hRuns⟩

/- The timer expires for one pending wait. -/
theorem timerDone_cases
    {code : ErrorCode}
    (hTimer : d.timerDone code = some d') :
    d' = d ∨
    ∃ timer, d' = { d with timer := timer } ∨
      ∃ s, d.session = some s ∧
        code.failed = false ∧ d.timer.waits ≠ 0 ∧
        d' =
          { d with
            timer := timer
            timeouts := d.timeouts ++ [d.timerCallback]
            session :=
              some
                (d.enter
                  { s with
                    serviceStopped := true }).stop } := by
  unfold timerDone at hTimer
  split at hTimer
  · exact .inl (Option.some.inj hTimer).symm
  · rename_i waits hWaits
    refine .inr ⟨{ d.timer with waits := waits }, ?_⟩
    unfold runTimer at hTimer
    split at hTimer
    · exact .inl (Option.some.inj hTimer).symm
    · rename_i hOk
      rcases abort_cases hTimer with ⟨s, hSession, hEnd⟩
      exact .inr ⟨s, hSession, by simpa using hOk,
        by simp [hWaits], hEnd⟩

/- A cancelled wait does not expire. -/
theorem timerCancelled_cases
    (hTimer : d.timerCancelled = some d') :
    d' = d ∨ ∃ timer, d' = { d with timer := timer } := by
  unfold timerCancelled at hTimer
  split at hTimer
  · exact .inl (Option.some.inj hTimer).symm
  · exact .inr ⟨_, (Option.some.inj hTimer).symm⟩

theorem unlessStopped_cases
    {result : Option Impl}
    (hStep : d.unlessStopped result = some d') :
    d' = d ∨
    (d.serviceStopped = false ∧ result = some d') := by
  unfold unlessStopped at hStep
  split at hStep
  · exact .inl (Option.some.inj hStep).symm
  · rename_i hGoesOn
    exact .inr ⟨by simpa using hGoesOn, hStep⟩

end Impl

end Network

------------------------------------------------------------
-- Steps of an Opened Request
------------------------------------------------------------

namespace Network

/- A call of the user that neither opens nor stops. -/
def RequestEvent.sets : RequestEvent → Bool
  | .setRequestHeader _ _ => true
  | .setTimeout _ => true
  | .setOnTimeoutCallback _ => true
  | .setOnReadyCallback _ => true
  | .setOnStateChangedCallback _ => true
  | .overrideMimeType _ => true
  | .send => true
  | .sendWithCallback _ => true
  | .sendBody _ => true
  | _ => false

namespace Impl

/-
  The user has changed settings at most: of the session only
  closures and the override.
-/
structure Unmoved (d d' : Impl) : Prop where
  service : d'.service = d.service
  isAsync : d'.isAsync = d.isAsync
  addr : d'.addr = d.addr
  port : d'.port = d.port
  timeouts : d'.timeouts = d.timeouts
  session :
    ∀ s', d'.session = some s' →
      ∃ s onReadyCb onReadyStateChange mime,
        d.session = some s ∧
        s' =
          { s with
            onReadyCb := onReadyCb
            onReadyStateChange := onReadyStateChange
            overrideMimeType := mime }

variable {d d' d'' : Impl}

/- What a call of the user sets in the session. -/
def settle (event : RequestEvent) (s : HttpTlsSession) :
    HttpTlsSession :=
  match event with
  | .setOnReadyCallback cb => { s with onReadyCb := some ⟨cb⟩ }
  | .sendWithCallback cb => { s with onReadyCb := some ⟨cb⟩ }
  | .setOnStateChangedCallback cb =>
      { s with onReadyStateChange := some (.wrapper cb) }
  | .overrideMimeType mime =>
      { s with overrideMimeType := mime }
  | _ => s

/- The event has done no more than what it sets. -/
structure Settled
    (event : RequestEvent)
    (d d' : Impl) : Prop where
  session : d'.session = d.session.map (settle event)
  response :
    d'.response = d.response ∨ d'.response = none
  service : d'.service = d.service
  isAsync : d'.isAsync = d.isAsync
  addr : d'.addr = d.addr
  port : d'.port = d.port
  timeouts : d'.timeouts = d.timeouts

variable {d d' : Impl}
variable {event : RequestEvent}

/- What is set are closures and the override. -/
theorem settle_eq (event : RequestEvent) (s : HttpTlsSession) :
    ∃ onReadyCb onReadyStateChange mime,
      settle event s =
        { s with
          onReadyCb := onReadyCb
          onReadyStateChange := onReadyStateChange
          overrideMimeType := mime } := by
  unfold settle
  split
  · exact ⟨_, s.onReadyStateChange, s.overrideMimeType, rfl⟩
  · exact ⟨_, s.onReadyStateChange, s.overrideMimeType, rfl⟩
  · exact ⟨s.onReadyCb, _, s.overrideMimeType, rfl⟩
  · exact ⟨s.onReadyCb, s.onReadyStateChange, _, rfl⟩
  · exact ⟨s.onReadyCb, s.onReadyStateChange,
      s.overrideMimeType, rfl⟩

theorem Settled.unmoved
    (hSettled : Settled event d d') :
    Unmoved d d' := by
  refine ⟨hSettled.service, hSettled.isAsync, hSettled.addr,
    hSettled.port, hSettled.timeouts, ?_⟩
  intro s' hAfter
  rw [hSettled.session] at hAfter
  rcases Option.map_eq_some_iff.mp hAfter with
    ⟨s, hBefore, rfl⟩
  rcases settle_eq event s with
    ⟨onReadyCb, onReadyStateChange, mime, hSet⟩
  exact ⟨s, onReadyCb, onReadyStateChange, mime, hBefore,
    hSet⟩

/- An event that leaves the session alone. -/
theorem settled_of_session
    (hSettle : settle event = id)
    (hSession : d'.session = d.session)
    (hResponse :
      d'.response = d.response ∨ d'.response = none)
    (hService : d'.service = d.service)
    (hAsync : d'.isAsync = d.isAsync)
    (hAddr : d'.addr = d.addr)
    (hPort : d'.port = d.port)
    (hTimeouts : d'.timeouts = d.timeouts) :
    Settled event d d' := by
  refine ⟨?_, hResponse, hService, hAsync, hAddr, hPort,
    hTimeouts⟩
  rw [hSettle, hSession, Option.map_id]
  rfl

theorem settled_refl
    (hSettle : settle event = id)
    (d : Impl) :
    Settled event d d :=
  settled_of_session hSettle rfl (.inl rfl) rfl rfl rfl rfl
    rfl

theorem sendPost_settled
    (hSettle : settle event = id)
    (d : Impl)
    (body : Bytes) :
    Settled event d (d.sendPost body) := by
  unfold sendPost
  split
  · exact settled_refl hSettle d
  · exact settled_of_session hSettle rfl (.inr rfl) rfl rfl
      rfl rfl rfl

theorem send_settled
    (hSettle : settle event = id)
    (d : Impl) :
    Settled event d d.send := by
  unfold send
  split
  · unfold sendGet
    split
    · exact settled_refl hSettle d
    · exact settled_of_session hSettle rfl (.inr rfl) rfl
        rfl rfl rfl rfl
  · exact sendPost_settled hSettle d []
  · exact settled_refl hSettle d

theorem sendWithCallback_settled
    (d : Impl)
    (cb : UserFunction) :
    Settled (.sendWithCallback cb) d
      (d.sendWithCallback cb) := by
  unfold sendWithCallback
  split
  · rename_i hNone
    refine ⟨?_, .inl rfl, rfl, rfl, rfl, rfl, rfl⟩
    rw [hNone]
    rfl
  · have hSent :
        Settled .send (d.setOnReadyCallback cb)
          (d.setOnReadyCallback cb).send :=
      send_settled rfl (d.setOnReadyCallback cb)
    refine ⟨?_, hSent.response, hSent.service,
      hSent.isAsync, hSent.addr, hSent.port,
      hSent.timeouts⟩
    rw [hSent.session]
    exact Option.map_id'

/- Such a call changes no more than what it sets. -/
theorem settled_of_sets
    {event : RequestEvent}
    (hSets : event.sets = true)
    (hStep : d.step event = some d') :
    Settled event d d' := by
  cases event with
  | setRequestHeader name value =>
      rw [← Option.some.inj hStep]
      exact settled_of_session rfl rfl (.inl rfl) rfl rfl
        rfl rfl rfl
  | setTimeout milliseconds =>
      rw [← Option.some.inj hStep]
      unfold setTimeout
      split
      · exact settled_refl rfl d
      · exact settled_of_session rfl rfl (.inl rfl) rfl rfl
          rfl rfl rfl
  | setOnTimeoutCallback cb =>
      rw [← Option.some.inj hStep]
      exact settled_of_session rfl rfl (.inl rfl) rfl rfl
        rfl rfl rfl
  | setOnReadyCallback cb =>
      rw [← Option.some.inj hStep]
      exact ⟨rfl, .inl rfl, rfl, rfl, rfl, rfl, rfl⟩
  | setOnStateChangedCallback cb =>
      rw [← Option.some.inj hStep]
      exact ⟨rfl, .inl rfl, rfl, rfl, rfl, rfl, rfl⟩
  | overrideMimeType mime =>
      rcases Option.map_eq_some_iff.mp hStep with
        ⟨s, hSession, rfl⟩
      refine ⟨?_, .inl rfl, rfl, rfl, rfl, rfl, rfl⟩
      rw [hSession]
      rfl
  | send =>
      rw [← Option.some.inj hStep]
      exact send_settled rfl d
  | sendWithCallback cb =>
      rw [← Option.some.inj hStep]
      exact d.sendWithCallback_settled cb
  | sendBody body =>
      rw [← Option.some.inj hStep]
      exact sendPost_settled rfl d body
  | _ => cases hSets

/-
  All that an event of an opened request can do: change
  settings, let the session run on an io_service that is not
  stopped, or stop the session.
-/
theorem stepOpened_cases
    {event : OpenedEvent}
    (hStep : d.stepOpened event = some d') :
    Settled event.1 d d' ∨
    (d.serviceStopped = false ∧
      ∃ s jobs, d.session = some s ∧
        { d with jobs := jobs }.AbsorbsRun d' s) ∨
    ∃ s timer timeouts, d.session = some s ∧
      (timeouts = d.timeouts ∨ d.expires event.1 = true) ∧
      d' =
        { d with
          timer := timer
          timeouts := timeouts
          session :=
            some
              (d.enter
                { s with serviceStopped := true }).stop } := by
  rcases event with ⟨event, hOpened⟩
  cases event with
  | openPlain setup => cases hOpened
  | openWith method uri async setup => cases hOpened
  | openAuth method uri async user password setup =>
      cases hOpened
  | abort =>
      rcases abort_cases hStep with ⟨s, hSession, hEnd⟩
      exact .inr (.inr
        ⟨s, d.timer, d.timeouts, hSession, .inl rfl, hEnd⟩)
  | job outcome =>
      rcases unlessStopped_cases hStep with
        rfl | ⟨hGoesOn, hJob⟩
      · exact .inl (settled_refl rfl _)
      · rcases nextJob_cases hJob with
          rfl | ⟨jobs, rfl | ⟨s, hSession, hRuns⟩⟩
        · exact .inl (settled_refl rfl _)
        · exact .inl
            (settled_of_session rfl rfl (.inl rfl) rfl rfl
              rfl rfl rfl)
        · exact .inr (.inl
            ⟨hGoesOn, s, jobs, hSession, hRuns⟩)
  | handler event =>
      rcases unlessStopped_cases hStep with
        rfl | ⟨hGoesOn, hRun⟩
      · exact .inl (settled_refl rfl _)
      · rcases runHandler_cases hRun with
          rfl | ⟨s, hSession, hRuns⟩
        · exact .inl (settled_refl rfl _)
        · exact .inr (.inl
            ⟨hGoesOn, s, d.jobs, hSession, hRuns⟩)
  | timer code =>
      rcases unlessStopped_cases hStep with
        rfl | ⟨hGoesOn, hTimer⟩
      · exact .inl (settled_refl rfl _)
      · rcases timerDone_cases hTimer with
          rfl | ⟨timer, rfl | ⟨s, hSession, hOk, hWaits,
            hEnd⟩⟩
        · exact .inl (settled_refl rfl _)
        · exact .inl
            (settled_of_session rfl rfl (.inl rfl) rfl rfl
              rfl rfl rfl)
        · have hExpires :
              d.expires (.timer code) = true := by
            simp [expires, hOk, hWaits, hGoesOn]
          exact .inr (.inr
            ⟨s, timer, _, hSession, .inr hExpires, hEnd⟩)
  | timerCancelled =>
      rcases unlessStopped_cases hStep with
        rfl | ⟨hGoesOn, hTimer⟩
      · exact .inl (settled_refl rfl _)
      · rcases timerCancelled_cases hTimer with
          rfl | ⟨timer, rfl⟩
        · exact .inl (settled_refl rfl _)
        · exact .inl
            (settled_of_session rfl rfl (.inl rfl) rfl rfl
              rfl rfl rfl)
  | _ => exact .inl (settled_of_sets rfl hStep)

end Impl

end Network
