import XMLHttpRequest.Library.Monitor
import XMLHttpRequest.Request.Deadline
import XMLHttpRequest.Request.Mirror
import XMLHttpRequest.Request.Timeout

/-
  The answers to a request that is never made asynchronous.

  The closure of the ready callback stops the session of a
  synchronous request, and with it the io_service.  What is
  answered is therefore answered within one handler.

  Key definitions include:
    * `Network.RequestEvent.asksAsync`
    * `Network.Impl.stepAnswered`

  Key theorems include:
    * `Network.Impl.openPlain_orderly`
    * `Network.Impl.step_orderly_synchronous`
    * `Network.Impl.synchronous_run`
-/

------------------------------------------------------------
-- Opening Again
------------------------------------------------------------

namespace Network

/- The request is opened as an asynchronous one. -/
def RequestEvent.asksAsync : RequestEvent → Bool
  | .openWith _ _ async _ => async
  | .openAuth _ _ async _ _ _ => async
  | _ => false

/- What can happen to a request that stays synchronous. -/
abbrev SyncEvent :=
  { event : RequestEvent // event.asksAsync = false }

namespace Impl

variable {d d' : Impl}

/- An answer is one that the log has. -/
theorem answered_eq_log (d : Impl) :
    d.answered = ! (answersOf d.log).isEmpty := by
  have hLog (log : List Invocation) :
      log.any (·.isReady) = ! (answersOf log).isEmpty := by
    induction log with
    | nil => rfl
    | cons entry log ih =>
        cases entry with
        | call c =>
            cases c with
            | stateChange closure state => exact ih
            | ready closure id rq rp => rfl
        | started closure => exact ih
        | stopped closure => exact ih
  unfold answered log
  cases d.session with
  | none => rfl
  | some s => exact hLog s.log

/- Telling a state gives no answer and stops nothing. -/
theorem callStateChange_orderly
    (hOrderly : d.Orderly)
    (state : ReadyState) :
    (d.callStateChange state).Orderly := by
  rcases d.callStateChange_cases state with
    ⟨_, hSame⟩ | ⟨s, _, _, hSession, hFrame⟩
  · exact hSame.symm ▸ hOrderly
  · rcases hOrderly s hSession with
      ⟨hService, hInner, hTimeouts⟩
    have hQuiet :
        (s.toCallbackState.callStateChange state).any
          (·.isReady) = false := by
      unfold CallbackState.callStateChange
      split <;> rfl
    rw [hFrame]
    intro s' hSome
    rw [Option.some.injEq] at hSome
    subst hSome
    refine ⟨hService,
      ⟨hInner.readyStops, hInner.idle, ?_⟩, hTimeouts⟩
    intro hStops hAnswered
    refine hInner.answered hStops ?_
    simpa [HttpTlsSession.answered, Invocation.isReady,
      Function.comp_def, hQuiet, enter] using hAnswered

/- A request that has no session has not timed out. -/
theorem Timed.idle_of_none
    (hTimed : d.Timed)
    (hNone : d.session = none) :
    d.Idle := by
  refine Impl.idle_of_none ?_ hNone
  refine hTimed.timeouts.resolve_right ?_
  rintro ⟨_, _, hEnded⟩
  simp [phase, hNone] at hEnded

theorem openPlain_isAsync
    (d : Impl)
    (setup : Setup) :
    (d.openPlain setup).isAsync = d.isAsync := by
  have hSetup : (d.setup setup).isAsync = d.isAsync := by
    generalize hStart : d.setup setup = started
    cases setUp_of_eq hStart <;> rfl
  have hTimer (d : Impl) : d.setupTimer.isAsync = d.isAsync := by
    unfold setupTimer
    split <;> rfl
  unfold openPlain
  split
  · rfl
  · refine Eq.trans ?_ ((hTimer _).trans hSetup)
    rcases (d.setup setup).setupTimer.callStateChange_cases
        .opened with ⟨_, hSame⟩ | ⟨_, _, _, _, hFrame⟩
    · rw [hSame]
    · rw [hFrame]

theorem openPlain_orderly
    (hOrderly : d.Orderly)
    (hTimed : d.Timed)
    (setup : Setup) :
    (d.openPlain setup).Orderly := by
  cases hSession : d.session with
  | none =>
      have hIdle := hTimed.idle_of_none hSession
      exact (openPlain_idle hIdle setup).orderly
  | some s =>
      have hSetup : d.setup setup = d := by
        unfold Impl.setup
        rw [hSession]
      unfold openPlain
      split
      · exact hOrderly
      · rw [hSetup]
        apply callStateChange_orderly
        unfold setupTimer
        split
        · exact hOrderly
        · exact hOrderly

theorem stays_synchronous
    (hSync : d.isAsync = false) :
    { d with isAsync := false } = d := by
  rw [← hSync]

theorem openWith_orderly
    (hOrderly : d.Orderly)
    (hTimed : d.Timed)
    (hSync : d.isAsync = false)
    (method uri : Bytes)
    (setup : Setup) :
    (d.openWith method uri false setup).Orderly := by
  unfold openWith prepare
  rw [stays_synchronous hSync]
  cases proccessUri uri with
  | none => exact hOrderly
  | some elements =>
      exact openPlain_orderly
        (d :=
          { d with
            addr := elements.addr
            port := elements.port
            proto := elements.protocol
            urn := elements.urn
            method := toUpper method })
        hOrderly (hTimed.of_same le_rfl rfl id) setup

/- What is opened stays synchronous. -/
theorem openWith_isAsync
    (hSync : d.isAsync = false)
    (method uri : Bytes)
    (setup : Setup) :
    (d.openWith method uri false setup).isAsync = false := by
  unfold openWith prepare
  rw [stays_synchronous hSync]
  cases proccessUri uri with
  | none => exact hSync
  | some elements => exact (openPlain_isAsync _ setup).trans hSync

end Impl

end Network

------------------------------------------------------------
-- Steps
------------------------------------------------------------

namespace Network

namespace Impl

variable {d d' : Impl}

/- Every step keeps the order in which things are stopped. -/
theorem step_orderly_synchronous
    {event : SyncEvent}
    (hOrderly : d.Orderly)
    (hTimed : d.Timed)
    (hSync : d.isAsync = false)
    (hStep : d.step event.1 = some d') :
    d'.Orderly ∧ d'.isAsync = false := by
  have hOpened
      (hOpens : event.1.opens = false) :
      d'.Orderly ∧ d'.isAsync = false := by
    have hStepOpened :
        d.stepOpened ⟨event.1, hOpens⟩ = some d' := hStep
    exact ⟨stepOpened_orderly hOrderly hStepOpened,
      (stepOpened_isAsync hStepOpened).trans hSync⟩
  rcases event with ⟨event, hAsks⟩
  cases event with
  | openPlain setup =>
      rw [← Option.some.inj hStep]
      exact ⟨openPlain_orderly hOrderly hTimed setup,
        (openPlain_isAsync d setup).trans hSync⟩
  | openWith method uri async setup =>
      have hAsync : async = false := hAsks
      subst hAsync
      rw [← Option.some.inj hStep]
      exact ⟨openWith_orderly hOrderly hTimed hSync _ _ setup,
        openWith_isAsync hSync method uri setup⟩
  | openAuth method uri async user password setup =>
      have hAsync : async = false := hAsks
      subst hAsync
      rw [← Option.some.inj hStep]
      exact ⟨openWith_orderly hOrderly hTimed hSync _ _ setup,
        openWith_isAsync hSync method uri setup⟩
  | _ => exact hOpened rfl

/- A request that has ended gives no answer. -/
theorem Frozen.answers
    (hFrozen : Frozen d d')
    (hEnded : d.phase = .ended) :
    answersOf d'.log = answersOf d.log := by
  cases hSession : d.session with
  | none => simp [phase, hSession] at hEnded
  | some s =>
      rcases hFrozen.session s hSession with ⟨s', hAfter, hSame⟩
      simpa [log, hSession, hAfter] using hSame.answers

end Impl

end Network

------------------------------------------------------------
-- Runs
------------------------------------------------------------

namespace Network

namespace Impl

/- A request, and how many events answers have come in. -/
def stepAnswered :
    Impl × Nat → SyncEvent → Option (Impl × Nat) :=
  Transition.observed (fun d event => d.step event.1)
    fun answered d _ d' =>
      answered +
        (decide (answersOf d'.log ≠ answersOf d.log)).toNat

/- The answers that came have ended the request. -/
structure AnsweredOnce (watched : Impl × Nat) : Prop where
  orderly : watched.1.Orderly
  timed : watched.1.Timed
  isAsync : watched.1.isAsync = false
  once : watched.2 ≤ 1
  silent : watched.1.answered = false → watched.2 = 0

theorem AnsweredOnce.step
    {watched next : Impl × Nat}
    {event : SyncEvent}
    (hOnce : AnsweredOnce watched)
    (hStep : stepAnswered watched event = some next) :
    AnsweredOnce next := by
  rcases Transition.observed_eq_some_iff.mp hStep with
    ⟨hNext, hCount⟩
  rcases step_orderly_synchronous hOnce.orderly hOnce.timed
      hOnce.isAsync hNext with ⟨hOrderly, hSync⟩
  have hTimed := hOnce.timed.step hNext
  -- an io_service that runs has not answered yet
  cases hService : watched.1.serviceStopped with
  | true =>
      have hEnded := serviceStopped_iff_phase.mp hService
      have hSame :=
        (step_frozen hEnded hNext).answers hEnded
      have hCounted : next.2 = watched.2 := by
        simpa [hSame] using hCount
      refine ⟨hOrderly, hTimed, hSync,
        hCounted ▸ hOnce.once, ?_⟩
      rw [hCounted, answered_eq_log, hSame, ← answered_eq_log]
      exact hOnce.silent
  | false =>
      have hSilent :=
        silent_of_synchronous hOnce.orderly hOnce.isAsync
          hService
      rw [hOnce.silent hSilent, Nat.zero_add] at hCount
      refine ⟨hOrderly, hTimed, hSync,
        hCount ▸ Bool.toNat_le _, ?_⟩
      intro hStill
      rw [answered_eq_log, Bool.not_eq_false',
        List.isEmpty_iff] at hSilent hStill
      simpa [hSilent, hStill] using hCount

/-
  A request that is only ever opened synchronously is answered
  in one event at most, and has ended then.
-/
theorem synchronous_run
    (construction : Construction)
    (hSync : construction.request.isAsync = false)
    {events : List SyncEvent}
    {watched : Impl × Nat}
    (hRun :
      Transition.exec stepAnswered (construction.request, 0)
        events = some watched) :
    watched.2 ≤ 1 ∧
      (answersOf watched.1.log ≠ [] →
        watched.1.phase = .ended) := by
  have hOnce : AnsweredOnce watched :=
    Transition.invariant
      (fun _ _ _ hOnce _ hStep => hOnce.step hStep)
      ⟨(construction_idle construction).orderly,
        construction_timed construction, hSync,
        Nat.zero_le _, fun _ => rfl⟩
      (Transition.along_true _ _) hRun
  refine ⟨hOnce.once, ?_⟩
  intro hAnswers
  rw [← serviceStopped_iff_phase]
  by_contra hRuns
  have hSilent :=
    silent_of_synchronous hOnce.orderly hOnce.isAsync
      (Bool.not_eq_true _ ▸ hRuns)
  rw [answered_eq_log, Bool.not_eq_false',
    List.isEmpty_iff] at hSilent
  exact hAnswers hSilent

/- A synchronous request is sent and its stream closed. -/
def synchronousRun : List SyncEvent :=
  [⟨openRoot false, rfl⟩,
    ⟨.setOnReadyCallback (some 1), rfl⟩, ⟨.send, rfl⟩,
    ⟨.job { connection := HttpTlsSession.h2Connection }, rfl⟩,
    ⟨.job { submission := { assignedId := 1 } }, rfl⟩,
    ⟨.handler
      (.readDone {} 1
        { upcalls := [.callback (.streamClose 1)]
          rv := 1 }), rfl⟩]

theorem synchronous_run_answered :
    ∃ watched,
      Transition.exec stepAnswered
          (Construction.empty.request, 0) synchronousRun =
        some watched ∧
      watched.2 ≤ 1 ∧
        (answersOf watched.1.log ≠ [] →
          watched.1.phase = .ended) := by
  rcases Option.isSome_iff_exists.mp
      (show
        (Transition.exec
          (fun (d : Impl) (event : SyncEvent) =>
            d.step event.1) {} synchronousRun).isSome = true
        from rfl) with ⟨d, hRun⟩
  rcases Transition.exec_observed hRun 0 with
    ⟨answered, hWatched⟩
  exact ⟨(d, answered), hWatched,
    synchronous_run .empty rfl hWatched⟩

end Impl

end Network
