import XMLHttpRequest.Request.Lifetime

/-
  The timer of a request.

  Opening arms the timer, which cancels what was pending, and
  an expiry stops the io_service that would run the next one.

  Key definitions include:
    * `Network.Impl.Timed`

  Key theorems include:
    * `Network.Impl.openPlain_timed`
    * `Network.Impl.timerDone_timed`
    * `Network.Impl.timed_run`
-/

------------------------------------------------------------
-- Arming
------------------------------------------------------------

namespace Network

namespace Impl

/-
  One wait of the timer is pending at most, and it has expired
  once at most, which was the end of the request.
-/
structure Timed (d : Impl) : Prop where
  waits : d.timer.waits ≤ 1
  timeouts :
    d.timeouts = [] ∨
      ∃ cb, d.timeouts = [cb] ∧ d.phase = .ended

variable {d d' : Impl}

/- What neither arms the timer nor lets it expire. -/
theorem Timed.of_same
    (hTimed : d.Timed)
    (hWaits : d'.timer.waits ≤ d.timer.waits)
    (hTimeouts : d'.timeouts = d.timeouts)
    (hPhase : d.phase = .ended → d'.phase = .ended) :
    d'.Timed where
  waits := hWaits.trans hTimed.waits
  timeouts := by
    rw [hTimeouts]
    exact hTimed.timeouts.imp_right fun ⟨cb, hCb, hEnded⟩ =>
      ⟨cb, hCb, hPhase hEnded⟩

/- Winding up does not lead away from the end. -/
theorem WindsUp.ended
    (hWinds : WindsUp d d')
    (hEnded : d.phase = .ended) :
    d'.phase = .ended := by
  have hLe := hWinds.phase_le
  rw [hEnded] at hLe
  cases hPhase : d'.phase with
  | ended => rfl
  | _ =>
      rw [hPhase] at hLe
      exact absurd hLe (by decide)

theorem setup_timer
    (d : Impl)
    (setup : Setup) :
    (d.setup setup).timer = d.timer ∧
      (d.setup setup).timeouts = d.timeouts := by
  generalize hStart : d.setup setup = started
  cases setUp_of_eq hStart with
  | present _ => exact ⟨rfl, rfl⟩
  | plain _ _ => exact ⟨rfl, rfl⟩
  | created _ _ _ => exact ⟨rfl, rfl⟩
  | listening _ _ _ => exact ⟨rfl, rfl⟩

/- Arming the timer cancels what was pending. -/
theorem setupTimer_waits (d : Impl) :
    d.setupTimer.timer.waits ≤ max d.timer.waits 1 := by
  unfold setupTimer
  split
  · exact Nat.le_max_left _ _
  · exact Nat.le_max_right _ _

theorem openPlain_timed
    (hTimed : d.Timed)
    (setup : Setup) :
    (d.openPlain setup).Timed := by
  have hWinds := d.openPlain_windsUp setup
  have hSetup := d.setup_timer setup
  have hArmed := (d.setup setup).setupTimer_waits
  have hTimeouts :
      (d.setup setup).setupTimer.timeouts = d.timeouts := by
    rw [← hSetup.2]
    unfold setupTimer
    split <;> rfl
  have hCall :
      ((d.setup setup).setupTimer.callStateChange
          .opened).timer = (d.setup setup).setupTimer.timer ∧
        ((d.setup setup).setupTimer.callStateChange
          .opened).timeouts =
            (d.setup setup).setupTimer.timeouts := by
    rcases (d.setup setup).setupTimer.callStateChange_cases
        .opened with ⟨_, hSame⟩ | ⟨_, _, _, _, hFrame⟩
    · rw [hSame]
      exact ⟨rfl, rfl⟩
    · rw [hFrame]
      exact ⟨rfl, rfl⟩
  unfold openPlain at hWinds ⊢
  split at hWinds
  · rename_i hOpened
    rw [if_pos hOpened]
    exact hTimed
  · rename_i hUnopened
    rw [if_neg hUnopened]
    refine ⟨?_, ?_⟩
    · rw [hCall.1]
      rw [hSetup.1] at hArmed
      exact hArmed.trans (Nat.max_le.mpr ⟨hTimed.waits, le_rfl⟩)
    · rw [hCall.2, hTimeouts]
      exact hTimed.timeouts.imp_right fun ⟨cb, hCb, hEnded⟩ =>
        ⟨cb, hCb, hWinds.ended hEnded⟩

theorem openWith_timed
    (hTimed : d.Timed)
    (method uri : Bytes)
    (async : Bool)
    (setup : Setup) :
    (d.openWith method uri async setup).Timed := by
  unfold openWith prepare
  cases proccessUri uri with
  | none => exact hTimed.of_same le_rfl rfl id
  | some elements =>
      have hPrepared :
          { d with
            isAsync := async
            addr := elements.addr
            port := elements.port
            proto := elements.protocol
            urn := elements.urn
            method := toUpper method }.Timed :=
        ⟨hTimed.waits, hTimed.timeouts⟩
      exact openPlain_timed hPrepared setup

end Impl

end Network

------------------------------------------------------------
-- Expiring
------------------------------------------------------------

namespace Network

namespace Impl

variable {d d' : Impl}

/- A wait that ends is pending no longer. -/
theorem timerDone_timed
    {code : ErrorCode}
    (hTimed : d.Timed)
    (hGoesOn : d.serviceStopped = false)
    (hTimer : d.timerDone code = some d') :
    d'.Timed := by
  have hNone : d.timeouts = [] := by
    rcases hTimed.timeouts with hNone | ⟨_, _, hEnded⟩
    · exact hNone
    · rw [serviceStopped_iff_phase.mpr hEnded] at hGoesOn
      cases hGoesOn
  have hWaits := hTimed.waits
  unfold timerDone at hTimer
  split at hTimer
  · exact Option.some.inj hTimer ▸ hTimed
  · rename_i waits hSome
    have hFewer : waits ≤ 1 := by omega
    unfold runTimer at hTimer
    split at hTimer
    · rw [← Option.some.inj hTimer]
      exact ⟨hFewer, .inl hNone⟩
    · rcases abort_cases hTimer with ⟨s, hSession, rfl⟩
      refine ⟨hFewer, .inr ⟨d.timerCallback, ?_, ?_⟩⟩
      · simp only [hNone, List.nil_append]
      · rw [← serviceStopped_iff_phase]
        exact (HttpTlsSession.stop_winds _).service rfl

theorem Timed.step
    {event : RequestEvent}
    (hTimed : d.Timed)
    (hStep : d.step event = some d') :
    d'.Timed := by
  have hEnds := (step_windsUp hStep).ended
  cases event with
  | openPlain setup =>
      rw [← Option.some.inj hStep]
      exact openPlain_timed hTimed setup
  | openWith method uri async setup =>
      rw [← Option.some.inj hStep]
      exact openWith_timed hTimed method uri async setup
  | openAuth method uri async user password setup =>
      rw [← Option.some.inj hStep]
      have hOpened :=
        openWith_timed hTimed method uri async setup
      exact ⟨hOpened.waits, hOpened.timeouts⟩
  | abort =>
      rcases abort_cases hStep with ⟨s, _, rfl⟩
      exact hTimed.of_same le_rfl rfl hEnds
  | job outcome =>
      rcases unlessStopped_cases hStep with rfl | ⟨_, hJob⟩
      · exact hTimed
      · rcases nextJob_cases hJob with
          rfl | ⟨jobs, rfl | ⟨s, _, hRuns⟩⟩
        · exact hTimed
        · exact hTimed.of_same le_rfl rfl hEnds
        · rcases hRuns.runsSession with ⟨_, _, _, _, _, rfl⟩
          exact hTimed.of_same le_rfl rfl hEnds
  | handler event =>
      rcases unlessStopped_cases hStep with rfl | ⟨_, hRun⟩
      · exact hTimed
      · rcases runHandler_cases hRun with rfl | ⟨s, _, hRuns⟩
        · exact hTimed
        · rcases hRuns.runsSession with ⟨_, _, _, _, _, rfl⟩
          exact hTimed.of_same le_rfl rfl hEnds
  | timer code =>
      rcases unlessStopped_cases hStep with
        rfl | ⟨hGoesOn, hTimer⟩
      · exact hTimed
      · exact timerDone_timed hTimed hGoesOn hTimer
  | timerCancelled =>
      rcases unlessStopped_cases hStep with rfl | ⟨_, hTimer⟩
      · exact hTimed
      · unfold timerCancelled at hTimer
        split at hTimer
        · exact Option.some.inj hTimer ▸ hTimed
        · have hAborted :
              ErrorCode.operationAborted.failed = true := rfl
          unfold runTimer at hTimer
          rw [if_pos hAborted, Option.some.injEq] at hTimer
          rw [← hTimer]
          exact ⟨hTimed.waits, hTimed.timeouts⟩
  | _ =>
      refine hTimed.of_same ?_
        (settled_of_sets rfl hStep).timeouts hEnds
      rw [(sets_called rfl hStep).timer]

theorem construction_timed (construction : Construction) :
    construction.request.Timed := by
  have hStart : ({} : Impl).Timed :=
    ⟨Nat.zero_le _, .inl rfl⟩
  have hCreate
      (method url : Bytes)
      (async : Bool)
      (setup : Setup) :
      (create method url async setup).Timed := by
    have hSetup :=
      (({} : Impl).prepare method url async).1.setup_timer
        setup
    have hPrepared :
        (({} : Impl).prepare method url async).1.timer = {} ∧
          (({} : Impl).prepare method url
            async).1.timeouts = [] := by
      unfold prepare
      simp only
      split <;> exact ⟨rfl, rfl⟩
    unfold create
    refine ⟨?_, .inl ?_⟩
    · rw [hSetup.1, hPrepared.1]
      exact Nat.zero_le _
    · rw [hSetup.2, hPrepared.2]
  cases construction with
  | empty => exact hStart
  | create method url async setup =>
      exact hCreate method url async setup
  | createFromView method url async setup =>
      exact hCreate _ _ async setup

/-
  However a request is constructed and used, its timer waits
  for one expiry at most, and its timeout callback is run once
  at most: the request has ended then.
-/
theorem timed_run
    (construction : Construction)
    {events : List RequestEvent}
    (hRun :
      Transition.exec step construction.request events =
        some d') :
    d'.Timed :=
  Transition.invariant
    (fun _ _ _ hTimed _ hStep => hTimed.step hStep)
    (construction_timed construction)
    (Transition.along_true _ _) hRun

/- The timer of an open request expires. -/
def expiredRun : List RequestEvent :=
  [.setTimeout 5, openRoot true, .timer {}, .timer {}]

theorem timed_run_expired :
    ∃ d',
      Transition.exec step Construction.empty.request
          expiredRun = some d' ∧
        d'.Timed := by
  rcases Option.isSome_iff_exists.mp
      (show
        (Transition.exec step {} expiredRun).isSome = true
        from rfl) with ⟨d', hRun⟩
  exact ⟨d', hRun, timed_run .empty hRun⟩

end Impl

end Network
