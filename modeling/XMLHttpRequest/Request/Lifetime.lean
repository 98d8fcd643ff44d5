import XMLHttpRequest.Request.Answers
import XMLHttpRequest.Request.Calls
import XMLHttpRequest.Session.Orders

/-
  The life of a request.

  A request has no session at first, then one that waits to be
  connected, then one that runs, and at the end one whose
  io_service has been stopped.  It never goes back, and at the
  end nothing that it has posted is run any more.

  Key definitions include:
    * `Network.Phase`
    * `Network.Impl.phase`
    * `Network.Impl.Frozen`

  Key theorems include:
    * `Network.Impl.step_windsUp`
    * `Network.Impl.phase_run`
    * `Network.Impl.step_frozen`
    * `Network.Impl.ended_run`
-/

------------------------------------------------------------
-- Phases
------------------------------------------------------------

namespace Network

inductive Phase
  /- no session -/
  | bare
  /- a session that has not been connected -/
  | waiting
  | running
  /- an io_service that has been stopped -/
  | ended
  deriving DecidableEq, Repr

def Phase.rank : Phase → Nat
  | .bare => 0
  | .waiting => 1
  | .running => 2
  | .ended => 3

def HttpTlsSession.phase (s : HttpTlsSession) : Phase :=
  if s.serviceStopped then .ended
  else if s.stopped then .waiting
  else .running

def Impl.phase (d : Impl) : Phase :=
  match d.session with
  | none => .bare
  | some s => s.phase

/- Winding up never leads back to an earlier phase. -/
theorem HttpTlsSession.Winds.phase_le
    {s s' : HttpTlsSession}
    (hWinds : Winds s s') :
    s.phase.rank ≤ s'.phase.rank := by
  unfold HttpTlsSession.phase
  split
  · rename_i hService
    rw [if_pos (hWinds.service hService)]
  · split
    · split
      · decide
      · split <;> decide
    · rename_i hRunning
      split
      · decide
      · rename_i hGoesOn
        have hRuns : ¬ s'.stopped = true := fun hEnd =>
          hGoesOn (hWinds.ended
            (Bool.eq_false_of_not_eq_true hRunning) hEnd)
        rw [if_neg hRuns]

end Network

------------------------------------------------------------
-- Winding Up
------------------------------------------------------------

namespace Network

namespace Impl

/- The request keeps its session, which winds up at most. -/
def WindsUp (d d' : Impl) : Prop :=
  ∀ s, d.session = some s →
    ∃ s', d'.session = some s' ∧ s.Winds s'

variable {d d' d'' : Impl}

theorem windsUp_of_session
    (hSession : d'.session = d.session) :
    WindsUp d d' := by
  intro s hSome
  exact ⟨s, hSession.trans hSome, .of_same rfl id⟩

theorem WindsUp.phase_le
    (hWinds : WindsUp d d') :
    d.phase.rank ≤ d'.phase.rank := by
  unfold phase
  cases hSession : d.session with
  | none => exact Nat.zero_le _
  | some s =>
      rcases hWinds s hSession with ⟨s', hAfter, hSame⟩
      rw [hAfter]
      exact hSame.phase_le

theorem callStateChange_windsUp
    (d : Impl)
    (state : ReadyState) :
    WindsUp d (d.callStateChange state) := by
  rcases d.callStateChange_cases state with
    ⟨_, hSame⟩ | ⟨s, _, _, hSession, hFrame⟩
  · rw [hSame]
    exact windsUp_of_session rfl
  · intro s' hSome
    rw [hSession, Option.some.injEq] at hSome
    subst hSome
    rw [hFrame]
    exact ⟨_, rfl, .of_same rfl id⟩

theorem openPlain_windsUp
    (d : Impl)
    (setup : Setup) :
    WindsUp d (d.openPlain setup) := by
  unfold openPlain
  split
  · exact windsUp_of_session rfl
  · intro s hSession
    have hSetup : d.setup setup = d :=
      setup_of_some (by rw [hSession]; rfl) setup
    rw [hSetup]
    exact d.setupTimer.callStateChange_windsUp .opened s
      (d.setupTimer_keeps.1.trans hSession)

theorem openWith_windsUp
    (d : Impl)
    (method uri : Bytes)
    (async : Bool)
    (setup : Setup) :
    WindsUp d (d.openWith method uri async setup) := by
  unfold openWith prepare
  cases proccessUri uri with
  | none => exact windsUp_of_session rfl
  | some elements =>
      have hOpened := openPlain_windsUp
        { d with
          isAsync := async
          addr := elements.addr
          port := elements.port
          proto := elements.protocol
          urn := elements.urn
          method := toUpper method } setup
      exact hOpened

theorem stepOpened_windsUp
    {event : OpenedEvent}
    (hStep : d.stepOpened event = some d') :
    WindsUp d d' := by
  intro s hSession
  rcases stepOpened_cases hStep with
    hSettled | ⟨_, ran, jobs, hRan, hRuns⟩ |
      ⟨stopping, timer, timeouts, hStopping, _, rfl⟩
  · rw [hSettled.session, hSession]
    refine ⟨_, rfl, ?_⟩
    rcases settle_eq event.1 s with ⟨_, _, _, hSet⟩
    rw [hSet]
    exact .of_same rfl id
  · rcases hRuns.runsSession with
      ⟨events, s', _, _, hExec, rfl⟩
    rw [hSession, Option.some.injEq] at hRan
    subst hRan
    have hWinds :=
      HttpTlsSession.winds_stepOrder.exec hExec
    exact ⟨s', rfl, hWinds.service, hWinds.ended⟩
  · rw [hSession, Option.some.injEq] at hStopping
    subst hStopping
    have hWinds :=
      HttpTlsSession.stop_winds
        (d.enter { s with serviceStopped := true })
    exact ⟨_, rfl, fun _ => hWinds.service rfl,
      fun _ _ => hWinds.service rfl⟩

/- Every event keeps a session that there is. -/
theorem step_windsUp
    {event : RequestEvent}
    (hStep : d.step event = some d') :
    WindsUp d d' := by
  cases event with
  | openPlain setup =>
      rw [← Option.some.inj hStep]
      exact d.openPlain_windsUp setup
  | openWith method uri async setup =>
      rw [← Option.some.inj hStep]
      exact d.openWith_windsUp method uri async setup
  | openAuth method uri async user password setup =>
      rw [← Option.some.inj hStep]
      exact d.openWith_windsUp method uri async setup
  | _ =>
      have hOpened : d.stepOpened ⟨_, rfl⟩ = some d' := hStep
      exact stepOpened_windsUp hOpened

/-
  A request goes from phase to phase in their order, whatever
  is called and whatever its io_service runs: it is connected
  at most once, and what has been stopped is never started
  again.
-/
theorem phase_run
    {events : List RequestEvent}
    (hRun : Transition.exec step d events = some d') :
    d.phase.rank ≤ d'.phase.rank := by
  induction events generalizing d with
  | nil => exact Option.some.inj hRun ▸ Nat.le_refl _
  | cons event events ih =>
      rcases Transition.exec_cons_eq_some_iff.mp hRun with
        ⟨next, hStep, hRest⟩
      exact (step_windsUp hStep).phase_le.trans (ih hRest)

/- A request is opened, sends and runs its jobs. -/
def connectingRun : List RequestEvent :=
  openRoot true :: .send :: submitJobs

/- A running request is aborted, and sends again. -/
theorem phase_run_aborted :
    ∃ d d',
      Transition.exec step {} connectingRun = some d ∧
      Transition.exec step d [.abort, .send] = some d' ∧
      d.phase = .running ∧
      d'.phase = .ended ∧
      d.phase.rank ≤ d'.phase.rank := by
  have hPhases :
      ((Transition.exec step {} connectingRun).bind fun d =>
        (Transition.exec step d [.abort, .send]).map fun d' =>
          (d.phase, d'.phase)) = some (.running, .ended) := by
    decide +kernel
  rcases Option.bind_eq_some_iff.mp hPhases with
    ⟨d, hConnected, hRest⟩
  rcases Option.map_eq_some_iff.mp hRest with
    ⟨d', hRun, hEnds⟩
  rw [Prod.mk.injEq] at hEnds
  exact ⟨d, d', hConnected, hRun, hEnds.1, hEnds.2,
    phase_run hRun⟩

end Impl

end Network

------------------------------------------------------------
-- The End
------------------------------------------------------------

namespace Network

namespace Impl

/-
  The session has done nothing but to tell a state.
-/
structure FrozenSession (s s' : HttpTlsSession) : Prop where
  serviceStopped : s'.serviceStopped = true
  streams : s'.streams = s.streams
  sock : s'.sock = s.sock
  nghttp2 : s'.nghttp2 = s.nghttp2
  answers : answersOf s'.log = answersOf s.log

/-
  No job or handler has been run.  What was posted is still
  queued, and a response can only have been reset.
-/
structure Frozen (d d' : Impl) : Prop where
  session :
    ∀ s, d.session = some s →
      ∃ s', d'.session = some s' ∧ FrozenSession s s'
  response : d'.response = d.response ∨ d'.response = none
  timeouts : d'.timeouts = d.timeouts
  jobs : d.jobs <+: d'.jobs

variable {d d' d'' : Impl}

theorem serviceStopped_iff_phase :
    d.serviceStopped = true ↔ d.phase = .ended := by
  unfold serviceStopped phase HttpTlsSession.phase
  cases d.session with
  | none => exact ⟨nofun, nofun⟩
  | some s =>
      simp only
      split
      · exact ⟨fun _ => rfl, fun _ => ‹_›⟩
      · rename_i hService
        split <;>
          exact ⟨fun hStopped => absurd hStopped hService, nofun⟩

theorem FrozenSession.refl
    {s : HttpTlsSession}
    (hService : s.serviceStopped = true) :
    FrozenSession s s :=
  ⟨hService, rfl, rfl, rfl, rfl⟩

theorem frozen_of_session
    (hEnded : d.phase = .ended)
    (hSession : d'.session = d.session)
    (hResponse :
      d'.response = d.response ∨ d'.response = none)
    (hTimeouts : d'.timeouts = d.timeouts)
    (hJobs : d.jobs <+: d'.jobs) :
    Frozen d d' where
  session s hSome := by
    have hStopped := serviceStopped_iff_phase.mpr hEnded
    unfold serviceStopped at hStopped
    rw [hSome] at hStopped
    exact ⟨s, hSession.trans hSome, .refl hStopped⟩
  response := hResponse
  timeouts := hTimeouts
  jobs := hJobs

theorem Frozen.trans
    (hFirst : Frozen d d')
    (hSecond : Frozen d' d'') :
    Frozen d d'' where
  session s hSome := by
    rcases hFirst.session s hSome with ⟨s', hSome', hSame⟩
    rcases hSecond.session s' hSome' with
      ⟨s'', hSome'', hSame'⟩
    exact ⟨s'', hSome'', hSame'.serviceStopped,
      hSame'.streams.trans hSame.streams,
      hSame'.sock.trans hSame.sock,
      hSame'.nghttp2.trans hSame.nghttp2,
      hSame'.answers.trans hSame.answers⟩
  response := by
    rcases hSecond.response with hSame | hNone
    · rw [hSame]
      exact hFirst.response
    · exact .inr hNone
  timeouts := hSecond.timeouts.trans hFirst.timeouts
  jobs := hFirst.jobs.trans hSecond.jobs

/- Telling a state is no answer. -/
theorem callStateChange_response
    (d : Impl)
    (state : ReadyState) :
    (d.callStateChange state).response = d.response := by
  unfold callStateChange
  split
  · rfl
  · rename_i s hSession
    have hCalls :=
      s.toCallbackState.answersOf_callStateChange state
    rw [d.absorb_response List.drop_left, hCalls]
    rfl

theorem callStateChange_frozen
    (hEnded : d.phase = .ended)
    (state : ReadyState) :
    Frozen d (d.callStateChange state) := by
  have hResponse := d.callStateChange_response state
  rcases d.callStateChange_cases state with
    ⟨_, hSame⟩ | ⟨s, _, _, hSession, hFrame⟩
  · rw [hSame]
    exact frozen_of_session hEnded rfl (.inl rfl) rfl
      (List.prefix_refl _)
  · have hStopped := serviceStopped_iff_phase.mpr hEnded
    unfold serviceStopped at hStopped
    rw [hSession] at hStopped
    have hCalls :=
      s.toCallbackState.answersOf_callStateChange state
    refine ⟨?_, .inl hResponse, ?_, ?_⟩
    · intro s₁ hSome
      rw [hSession, Option.some.injEq] at hSome
      subst hSome
      rw [hFrame]
      refine ⟨_, rfl, hStopped, rfl, rfl, rfl, ?_⟩
      rw [answersOf_append, hCalls, List.append_nil]
    · rw [hFrame]
    · have hJobs : (d.callStateChange state).jobs = d.jobs := by
        rw [hFrame]
      exact hJobs ▸ List.prefix_refl _

/- An open finds the session that there is. -/
theorem openPlain_frozen
    (hEnded : d.phase = .ended)
    (setup : Setup) :
    Frozen d (d.openPlain setup) := by
  unfold openPlain
  split
  · exact frozen_of_session hEnded rfl (.inl rfl) rfl
      (List.prefix_refl _)
  · have hSession : d.session.isSome = true := by
      have hStopped := serviceStopped_iff_phase.mpr hEnded
      unfold serviceStopped at hStopped
      cases hNone : d.session with
      | none => rw [hNone] at hStopped; cases hStopped
      | some s => rfl
    rw [setup_of_some hSession]
    have hArmed : Frozen d d.setupTimer := by
      refine frozen_of_session hEnded
        d.setupTimer_keeps.1 ?_ ?_ ?_ <;>
        unfold setupTimer <;> split
      · exact .inl rfl
      · exact .inl rfl
      · rfl
      · rfl
      · exact List.prefix_refl _
      · exact List.prefix_refl _
    have hStill : d.setupTimer.phase = .ended := by
      unfold phase
      rw [d.setupTimer_keeps.1]
      exact hEnded
    exact hArmed.trans (callStateChange_frozen hStill .opened)

theorem openWith_frozen
    (hEnded : d.phase = .ended)
    (method uri : Bytes)
    (async : Bool)
    (setup : Setup) :
    Frozen d (d.openWith method uri async setup) := by
  unfold openWith prepare
  cases proccessUri uri with
  | none =>
      exact frozen_of_session hEnded rfl (.inl rfl) rfl
        (List.prefix_refl _)
  | some elements =>
      have hPrepared :
          { d with
            isAsync := async
            addr := elements.addr
            port := elements.port
            proto := elements.protocol
            urn := elements.urn
            method := toUpper method }.phase = .ended := hEnded
      have hOpened := openPlain_frozen hPrepared setup
      exact ⟨hOpened.session, hOpened.response,
        hOpened.timeouts, hOpened.jobs⟩

theorem sets_frozen
    {event : RequestEvent}
    (hEnded : d.phase = .ended)
    (hSets : event.sets = true)
    (hStep : d.step event = some d') :
    Frozen d d' := by
  have hSettled := settled_of_sets hSets hStep
  rcases (sets_called hSets hStep).jobs with ⟨job, _, hJobs⟩
  refine ⟨?_, hSettled.response, hSettled.timeouts,
    ⟨_, hJobs.symm⟩⟩
  intro s hSession
  have hStopped := serviceStopped_iff_phase.mpr hEnded
  unfold serviceStopped at hStopped
  rw [hSession] at hStopped
  rw [hSettled.session, hSession]
  refine ⟨_, rfl, ?_⟩
  rcases settle_eq event s with ⟨_, _, _, hSet⟩
  rw [hSet]
  exact ⟨hStopped, rfl, rfl, rfl, rfl⟩

/- There is nothing left that an abort could stop. -/
theorem abort_frozen
    (hAbort : d.abort = some d') :
    Frozen d d' := by
  rcases abort_cases hAbort with ⟨s, hSession, rfl⟩
  refine ⟨?_, .inl rfl, rfl, List.prefix_refl _⟩
  intro s₁ hSome
  rw [hSession, Option.some.injEq] at hSome
  subst hSome
  refine ⟨_, rfl, ?_⟩
  unfold HttpTlsSession.stop
  split
  · exact ⟨rfl, rfl, rfl, rfl, rfl⟩
  · exact ⟨rfl, rfl, rfl, rfl, rfl⟩

theorem step_frozen
    {event : RequestEvent}
    (hEnded : d.phase = .ended)
    (hStep : d.step event = some d') :
    Frozen d d' := by
  have hStopped := serviceStopped_iff_phase.mpr hEnded
  have hIdle
      {result : Option Impl}
      (hQueued : d.unlessStopped result = some d') :
      Frozen d d' := by
    unfold unlessStopped at hQueued
    rw [if_pos hStopped, Option.some.injEq] at hQueued
    rw [← hQueued]
    exact frozen_of_session hEnded rfl (.inl rfl) rfl
      (List.prefix_refl _)
  cases event with
  | openPlain setup =>
      rw [← Option.some.inj hStep]
      exact openPlain_frozen hEnded setup
  | openWith method uri async setup =>
      rw [← Option.some.inj hStep]
      exact openWith_frozen hEnded method uri async setup
  | openAuth method uri async user password setup =>
      rw [← Option.some.inj hStep]
      have hOpened :=
        openWith_frozen hEnded method uri async setup
      exact ⟨hOpened.session, hOpened.response,
        hOpened.timeouts, hOpened.jobs⟩
  | abort => exact abort_frozen hStep
  | job outcome => exact hIdle hStep
  | handler event => exact hIdle hStep
  | timer code => exact hIdle hStep
  | timerCancelled => exact hIdle hStep
  | _ => exact sets_frozen hEnded rfl hStep

theorem Frozen.phase_eq
    (hEnded : d.phase = .ended)
    (hFrozen : Frozen d d') :
    d'.phase = .ended := by
  have hStopped := serviceStopped_iff_phase.mpr hEnded
  rw [← serviceStopped_iff_phase]
  unfold serviceStopped at hStopped ⊢
  cases hSession : d.session with
  | none => rw [hSession] at hStopped; cases hStopped
  | some s =>
      rcases hFrozen.session s hSession with ⟨s', hAfter, hSame⟩
      rw [hAfter]
      exact hSame.serviceStopped

/-
  After an abort nothing more comes of what was posted: in any
  run the streams and the socket stay as they are, no answer
  is given, no timeout is told and no job is taken.
-/
theorem ended_run
    {events : List RequestEvent}
    (hEnded : d.phase = .ended)
    (hRun : Transition.exec step d events = some d') :
    Frozen d d' := by
  induction events generalizing d with
  | nil =>
      rw [← Option.some.inj hRun]
      exact frozen_of_session hEnded rfl (.inl rfl) rfl
        (List.prefix_refl _)
  | cons event events ih =>
      rcases Transition.exec_cons_eq_some_iff.mp hRun with
        ⟨next, hStep, hRest⟩
      have hFrozen := step_frozen hEnded hStep
      exact hFrozen.trans
        (ih (hFrozen.phase_eq hEnded) hRest)

/- A request with an unread response is aborted. -/
def endedRequest : Impl where
  session :=
    some
      { HttpTlsSession.create (ascii "a.com") (ascii "443")
          HttpTlsSession.zeroGarbage with
        serviceStopped := true
        sock := { reads := 1 } }
  service := true
  method := methodGet
  timer := { waits := 1 }

theorem ended_run_read :
    ∃ d',
      Transition.exec step endedRequest
          [.send, .handler (.readDone {} 1 { rv := 1 }),
            .job {}, .timer {}, .abort] = some d' ∧
        Frozen endedRequest d' := by
  rcases Option.isSome_iff_exists.mp
      (show
        (Transition.exec step endedRequest
          [.send, .handler (.readDone {} 1 { rv := 1 }),
            .job {}, .timer {}, .abort]).isSome = true
        from rfl) with ⟨d', hRun⟩
  exact ⟨d', hRun, ended_run rfl hRun⟩

end Impl

end Network
