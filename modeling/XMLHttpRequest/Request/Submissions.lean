import XMLHttpRequest.Request.Frames
import XMLHttpRequest.Request.SubmitReport
import XMLHttpRequest.Session.Requests

/-
  Which steps of a request give nghttp2 a request, and which
  one.

  Key definitions include:
    * `Network.Impl.requests`
    * `Network.Impl.given`
    * `Network.Impl.Submits`
    * `Network.LaterEvent`

  Key theorems include:
    * `Network.Impl.Fetches.given_eq`
    * `Network.Impl.submits_of_given`
    * `Network.Impl.stepLater_given`
-/

------------------------------------------------------------
-- Submissions
------------------------------------------------------------

namespace Network

namespace Impl

variable (d : Impl)

/- What nghttp2 has been given by the session, if any. -/
def requests (d : Impl) : List SubmittedRequest :=
  match d.session with
  | none => []
  | some s => s.nghttp2.requests

/-
  The request that `Impl::fetch` gives to nghttp2.  Where the
  inner write waits forever it has been given all the same.
-/
def givenByFetch
    (s : HttpTlsSession)
    (body : Bool)
    (submission : Submission) : List SubmittedRequest :=
  if methodFromString d.method = .unknown then []
  else s.given (d.fetchArguments body) submission

/- What the event gives to nghttp2. -/
def given (d : Impl) : RequestEvent → List SubmittedRequest
  | .job outcome =>
      if d.serviceStopped then []
      else
        match d.session, d.jobs.head? with
        | some s, some .fetch =>
            d.givenByFetch s false outcome.submission
        | some s, some .fetchWithBody =>
            d.givenByFetch s true outcome.submission
        | _, _ => []
  | _ => []

/- The next job of the io_service is such a fetch. -/
structure Fetches
    (d : Impl)
    (submission : Submission)
    (s : HttpTlsSession)
    (u : HttpParserUrl)
    (body : Bool) : Prop where
  goesOn : d.serviceStopped = false
  session : d.session = some s
  job :
    d.jobs.head? =
      some (if body then .fetchWithBody else .fetch)
  method : methodFromString d.method ≠ .unknown
  runs : s.stopped = false
  url : submittableUrl d.submittedUrl = some u
  taken : ¬ submission.assignedId < 0

/- The event makes nghttp2 take a request. -/
def Submits
    (d : Impl)
    (event : RequestEvent)
    (submission : Submission) : Prop :=
  ∃ outcome s u body, event = .job outcome ∧
    outcome.submission = submission ∧
    d.Fetches submission s u body

variable {d d' : Impl}

theorem absorb_requests
    (d : Impl)
    (seen : Nat)
    (s : HttpTlsSession) :
    (d.absorb seen s).method = d.method ∧
      (d.absorb seen s).requests = s.nghttp2.requests := by
  rcases d.absorb_eq seen s with
    ⟨readyState, response, hFrame⟩
  rw [hFrame]
  exact ⟨rfl, rfl⟩

/- An operation of the session that submits nothing. -/
theorem onSession_requests
    {s : HttpTlsSession}
    {operation : HttpTlsSession → Option HttpTlsSession}
    (hSession : d.session = some s)
    (hOperation :
      ∀ s', operation (d.enter s) = some s' →
        (d.enter s).SameRequests s')
    (hOn : d.onSession s operation = some d') :
    d'.method = d.method ∧ d'.requests = d.requests := by
  rcases Option.map_eq_some_iff.mp hOn with
    ⟨s', hRun, rfl⟩
  have hAbsorb := d.absorb_requests s.log.length s'
  have hSame := hOperation s' hRun
  refine ⟨hAbsorb.1, hAbsorb.2.trans ?_⟩
  rw [requests, hSession]
  exact hSame

/- A fetch that returns has given nghttp2 its request. -/
theorem submitRequest_given
    {s : HttpTlsSession}
    {body : Bool}
    {submission : Submission}
    (hSession : d.session = some s)
    (hSubmit :
      d.submitRequest s body submission = some d') :
    d'.method = d.method ∧
      d'.requests =
        d.requests ++ d.givenByFetch s body submission := by
  by_cases hUnknown : methodFromString d.method = .unknown
  · rw [givenByFetch, if_pos hUnknown, List.append_nil]
    simp only [submitRequest, hUnknown] at hSubmit
    refine onSession_requests hSession ?_ hSubmit
    intro s' hSame
    cases hSame
    exact (d.enter s).stop_undisturbed.sameRequests
  · rw [givenByFetch, if_neg hUnknown]
    rw [d.submitRequest_eq hUnknown] at hSubmit
    rcases Option.map_eq_some_iff.mp hSubmit with
      ⟨s', hRun, rfl⟩
    rcases Option.map_eq_some_iff.mp hRun with
      ⟨⟨submitted, ec, id⟩, hSubmitted, hEnd⟩
    have hAbsorb := d.absorb_requests s.log.length s'
    refine ⟨hAbsorb.1, hAbsorb.2.trans ?_⟩
    have hGiven :
        submitted.nghttp2.requests =
          s.nghttp2.requests ++
            s.given (d.fetchArguments body) submission :=
      HttpTlsSession.submit_given (s := d.enter s) hSubmitted
    have hBefore : d.requests = s.nghttp2.requests := by
      rw [requests, hSession]
    rw [hBefore, ← hEnd]
    simp only
    split
    · rw [← hGiven]
      exact submitted.stop_undisturbed.sameRequests
    · exact hGiven

/- What such a fetch gives. -/
theorem Fetches.given_eq
    {outcome : JobOutcome}
    {s : HttpTlsSession}
    {u : HttpParserUrl}
    {body : Bool}
    (hFetches : d.Fetches outcome.submission s u body) :
    d.given (.job outcome) =
      [HttpTlsSession.requestFor (d.fetchArguments body) u
        outcome.submission] := by
  have hGiven :
      d.givenByFetch s body outcome.submission =
        [HttpTlsSession.requestFor (d.fetchArguments body) u
          outcome.submission] := by
    rw [givenByFetch, if_neg hFetches.method]
    exact HttpTlsSession.given_of_accepted hFetches.runs
      hFetches.url hFetches.taken
  have hJob := hFetches.job
  simp only [given, hFetches.goesOn, hFetches.session,
    Bool.false_eq_true, if_false]
  cases body with
  | true => simpa [hJob] using hGiven
  | false => simpa [hJob] using hGiven

/- Nothing but a fetch gives nghttp2 a request. -/
theorem submits_of_given
    {event : RequestEvent}
    {request : SubmittedRequest}
    (hGiven : request ∈ d.given event) :
    ∃ outcome s u body, event = .job outcome ∧
      d.Fetches outcome.submission s u body := by
  cases event with
  | job outcome =>
      simp only [given] at hGiven
      split at hGiven
      · cases hGiven
      · rename_i hGoesOn
        have hFetch
            (body : Bool)
            {s : HttpTlsSession}
            (hSession : d.session = some s)
            (hJob :
              d.jobs.head? =
                some (if body then .fetchWithBody else .fetch))
            (hTaken :
              request ∈
                d.givenByFetch s body outcome.submission) :
            ∃ u, d.Fetches outcome.submission s u body := by
          unfold givenByFetch at hTaken
          split at hTaken
          · cases hTaken
          · rename_i hMethod
            rcases HttpTlsSession.accepted_of_given hTaken with
              ⟨u, hRuns, hUrl, hAccepted⟩
            exact ⟨u, by simpa using hGoesOn, hSession, hJob,
              hMethod, hRuns, hUrl, hAccepted⟩
        split at hGiven
        · rename_i s hSession hJob
          rcases hFetch false hSession hJob hGiven with
            ⟨u, hFetches⟩
          exact ⟨outcome, s, u, false, rfl, hFetches⟩
        · rename_i s hSession hJob
          rcases hFetch true hSession hJob hGiven with
            ⟨u, hFetches⟩
          exact ⟨outcome, s, u, true, rfl, hFetches⟩
        · cases hGiven
  | _ => cases hGiven

end Impl

end Network

------------------------------------------------------------
-- Steps After an Open
------------------------------------------------------------

namespace Network

/-
  The event is no open with another method and no call of the
  session, which is out of the user's reach.
-/
def RequestEvent.later : RequestEvent → Bool
  | .openWith _ _ _ _ => false
  | .openAuth _ _ _ _ _ _ => false
  | .handler (.submit _ _) => false
  | _ => true

/- What can happen to a request after it has its method. -/
abbrev LaterEvent :=
  { event : RequestEvent // event.later = true }

namespace Impl

def stepLater
    (d : Impl)
    (event : LaterEvent) : Option Impl :=
  d.step event.1

variable {d d' : Impl}

/- Neither the method nor what nghttp2 was given changes. -/
def KeepsRequests (d d' : Impl) : Prop :=
  d'.method = d.method ∧ d'.requests = d.requests

theorem KeepsRequests.trans
    {d'' : Impl}
    (hFirst : KeepsRequests d d')
    (hSecond : KeepsRequests d' d'') :
    KeepsRequests d d'' :=
  ⟨hSecond.1.trans hFirst.1, hSecond.2.trans hFirst.2⟩

theorem callStateChange_keepsRequests
    (d : Impl)
    (state : ReadyState) :
    KeepsRequests d (d.callStateChange state) := by
  rcases d.callStateChange_cases state with
    ⟨_, hSame⟩ | ⟨s, _, _, hSession, hFrame⟩
  · rw [hSame]
    exact ⟨rfl, rfl⟩
  · rw [hFrame]
    refine ⟨rfl, ?_⟩
    simp only [requests, hSession]

theorem setup_keepsRequests
    (d : Impl)
    (setup : Setup) :
    KeepsRequests d (d.setup setup) := by
  generalize hStart : d.setup setup = started
  cases setUp_of_eq hStart with
  | present _ => exact ⟨rfl, rfl⟩
  | plain hSession _ =>
      exact ⟨rfl, by simp only [requests, hSession]⟩
  | created hSession _ _ | listening hSession _ _ =>
      refine ⟨rfl, ?_⟩
      simp only [requests, hSession]
      rfl

theorem openPlain_keepsRequests
    (d : Impl)
    (setup : Setup) :
    KeepsRequests d (d.openPlain setup) := by
  unfold openPlain
  split
  · exact ⟨rfl, rfl⟩
  · have hTimer :
        KeepsRequests (d.setup setup)
          (d.setup setup).setupTimer := by
      unfold setupTimer
      split <;> exact ⟨rfl, rfl⟩
    exact ((d.setup_keepsRequests setup).trans hTimer).trans
      (callStateChange_keepsRequests _ _)

theorem Settled.requests
    {event : RequestEvent}
    (hSettled : Settled event d d') :
    d'.requests = d.requests := by
  unfold Impl.requests
  rw [hSettled.session]
  cases d.session with
  | none => rfl
  | some s =>
      rcases settle_eq event s with ⟨_, _, _, hSet⟩
      simp only [Option.map_some, hSet]

theorem send_method (d : Impl) : d.send.method = d.method := by
  unfold send
  split
  · unfold sendGet
    split <;> rfl
  · unfold sendPost
    split <;> rfl
  · rfl

/- A call that only sets keeps the method. -/
theorem sets_method
    {event : RequestEvent}
    (hSets : event.sets = true)
    (hStep : d.step event = some d') :
    d'.method = d.method := by
  cases event with
  | setRequestHeader name value =>
      rw [← Option.some.inj hStep]
      rfl
  | setTimeout milliseconds =>
      rw [← Option.some.inj hStep]
      unfold setTimeout
      split <;> rfl
  | setOnTimeoutCallback cb =>
      rw [← Option.some.inj hStep]
      rfl
  | setOnReadyCallback cb =>
      rw [← Option.some.inj hStep]
      rfl
  | setOnStateChangedCallback cb =>
      rw [← Option.some.inj hStep]
      rfl
  | overrideMimeType mime =>
      rcases Option.map_eq_some_iff.mp hStep with ⟨s, _, rfl⟩
      rfl
  | send =>
      rw [← Option.some.inj hStep]
      exact d.send_method
  | sendWithCallback cb =>
      rw [← Option.some.inj hStep]
      unfold sendWithCallback
      split
      · rfl
      · exact (d.setOnReadyCallback cb).send_method
  | sendBody body =>
      rw [← Option.some.inj hStep]
      unfold sendPost
      split <;> rfl
  | _ => cases hSets

theorem abort_keepsRequests
    (hAbort : d.abort = some d') :
    KeepsRequests d d' := by
  rcases abort_cases hAbort with ⟨s, hSession, rfl⟩
  refine ⟨rfl, ?_⟩
  have hStop :=
    ((d.enter { s with
      serviceStopped := true }).stop_undisturbed).sameRequests
  simp only [requests, hSession]
  exact hStop

theorem runTimer_keepsRequests
    {code : ErrorCode}
    (hTimer : d.runTimer code = some d') :
    KeepsRequests d d' := by
  unfold runTimer at hTimer
  split at hTimer
  · rw [← Option.some.inj hTimer]
    exact ⟨rfl, rfl⟩
  · have hKept := abort_keepsRequests hTimer
    exact hKept

theorem runHandler_keepsRequests
    {event : SessionEvent}
    (hOther :
      ∀ arguments submission,
        event ≠ .submit arguments submission)
    (hHandler : d.runHandler event = some d') :
    KeepsRequests d d' := by
  unfold runHandler at hHandler
  split at hHandler
  · rw [← Option.some.inj hHandler]
    exact ⟨rfl, rfl⟩
  · rename_i s hSession
    exact onSession_requests hSession
      (fun s' hStep =>
        HttpTlsSession.step_sameRequests hOther hStep)
      hHandler

theorem timerDone_keepsRequests
    {code : ErrorCode}
    (hTimer : d.timerDone code = some d') :
    KeepsRequests d d' := by
  unfold timerDone at hTimer
  split at hTimer
  · rw [← Option.some.inj hTimer]
    exact ⟨rfl, rfl⟩
  · have hKept := runTimer_keepsRequests hTimer
    exact hKept

theorem timerCancelled_keepsRequests
    (hTimer : d.timerCancelled = some d') :
    KeepsRequests d d' := by
  unfold timerCancelled at hTimer
  split at hTimer
  · rw [← Option.some.inj hTimer]
    exact ⟨rfl, rfl⟩
  · have hKept := runTimer_keepsRequests hTimer
    exact hKept

theorem connect_keepsRequests
    {connection : Connection}
    (hConnect : d.connect connection = some d') :
    KeepsRequests d d' := by
  unfold connect at hConnect
  split at hConnect
  · cases hConnect
  · rename_i s hSession
    split at hConnect
    · refine onSession_requests hSession ?_ hConnect
      intro s' hResolve
      rcases Option.map_eq_some_iff.mp hResolve with
        ⟨_, hResult, rfl⟩
      exact HttpTlsSession.startResolve_sameRequests hResult
    · rw [← Option.some.inj hConnect]
      exact ⟨rfl, rfl⟩

/- The next job gives nghttp2 what it is said to give. -/
theorem nextJob_given
    {outcome : JobOutcome}
    (hGoesOn : d.serviceStopped = false)
    (hJob : d.nextJob outcome = some d') :
    d'.method = d.method ∧
      d'.requests = d.requests ++ d.given (.job outcome) := by
  simp only [given, hGoesOn, Bool.false_eq_true, if_false]
  unfold nextJob at hJob
  split at hJob
  · rename_i hEmpty
    rw [← Option.some.inj hJob, hEmpty]
    exact ⟨rfl, by simp⟩
  · rename_i job jobs hJobs
    rw [hJobs]
    cases job with
    | connect =>
        have hKept :
            KeepsRequests { d with jobs := jobs } d' :=
          connect_keepsRequests hJob
        have hRequests : d'.requests = d.requests := hKept.2
        refine ⟨hKept.1, ?_⟩
        rw [hRequests]
        cases d.session <;> simp
    | fetch =>
        simp only [runJob, fetch] at hJob
        split at hJob
        · cases hJob
        · rename_i s hSession
          simp only [hSession, List.head?_cons]
          split at hJob
          · rename_i hStopped
            rw [← Option.some.inj hJob]
            refine ⟨rfl, ?_⟩
            simp [givenByFetch, HttpTlsSession.given, hStopped,
              requests]
          · have hGiven :=
              submitRequest_given (d := { d with jobs := jobs })
                hSession hJob
            exact hGiven
    | fetchWithBody =>
        simp only [runJob, fetchWithBody] at hJob
        split at hJob
        · cases hJob
        · rename_i s hSession
          simp only [hSession, List.head?_cons]
          have hGiven :=
            submitRequest_given (d := { d with jobs := jobs })
              hSession hJob
          exact hGiven

/-
  A step keeps the method, and if it returns nghttp2 has what
  it was given.
-/
theorem stepLater_given
    {event : LaterEvent}
    (hStep : d.stepLater event = some d') :
    d'.method = d.method ∧
      d'.requests = d.requests ++ d.given event.1 := by
  have hKeeps
      (hNone : d.given event.1 = [])
      (hKept : KeepsRequests d d') :
      d'.method = d.method ∧
        d'.requests = d.requests ++ d.given event.1 := by
    rw [hNone, List.append_nil]
    exact hKept
  rcases event with ⟨event, hLater⟩
  by_cases hSets : event.sets = true
  · have hNone : d.given event = [] := by
      cases event <;> first | rfl | cases hSets
    exact hKeeps hNone
      ⟨sets_method hSets hStep,
        (settled_of_sets hSets hStep).requests⟩
  · cases event with
    | openPlain setup =>
        apply hKeeps rfl
        rw [← Option.some.inj hStep]
        exact d.openPlain_keepsRequests setup
    | openWith method uri async setup => cases hLater
    | openAuth method uri async user password setup =>
        cases hLater
    | abort => exact hKeeps rfl (abort_keepsRequests hStep)
    | job outcome =>
        have hQueued :
            d.unlessStopped (d.nextJob outcome) = some d' :=
          hStep
        unfold unlessStopped at hQueued
        split at hQueued
        · rename_i hStopped
          rw [← Option.some.inj hQueued]
          exact ⟨rfl, by simp [given, hStopped]⟩
        · rename_i hGoesOn
          exact nextJob_given (by simpa using hGoesOn) hQueued
    | handler handled =>
        rcases unlessStopped_cases hStep with
          rfl | ⟨_, hRun⟩
        · exact hKeeps rfl ⟨rfl, rfl⟩
        · refine hKeeps rfl (runHandler_keepsRequests ?_ hRun)
          rintro arguments submission rfl
          cases hLater
    | timer code =>
        rcases unlessStopped_cases hStep with
          rfl | ⟨_, hTimer⟩
        · exact hKeeps rfl ⟨rfl, rfl⟩
        · exact hKeeps rfl (timerDone_keepsRequests hTimer)
    | timerCancelled =>
        rcases unlessStopped_cases hStep with
          rfl | ⟨_, hTimer⟩
        · exact hKeeps rfl ⟨rfl, rfl⟩
        · exact hKeeps rfl (timerCancelled_keepsRequests hTimer)
    | _ => exact absurd rfl hSets

end Impl

end Network
