import XMLHttpRequest.Request.Target

/-
  A request keeps its session and its io_service.

  Key definitions include:
    * `Network.Impl.Whole`
    * `Network.Impl.Sound`

  Key theorems include:
    * `Network.Impl.openPlain_keeps`
    * `Network.Impl.step_keeps`
    * `Network.Impl.construction_sound`
-/

------------------------------------------------------------
-- Opening
------------------------------------------------------------

namespace Network

namespace Impl

/- Both pointers are set. -/
structure Whole (d : Impl) : Prop where
  session : d.session.isSome = true
  service : d.service = true

/- The session is created together with its io_service. -/
def Sound (d : Impl) : Prop :=
  d.session.isSome = true → d.service = true

variable {d d' : Impl}

theorem setup_of_some
    (hSession : d.session.isSome = true)
    (setup : Setup) :
    d.setup setup = d := by
  rcases Option.isSome_iff_exists.mp hSession with
    ⟨s, hSome⟩
  simp [Impl.setup, hSome]

/- A setup creates an io_service if there is no session. -/
theorem setup_service
    (hSound : d.Sound)
    (setup : Setup) :
    (d.setup setup).service = true := by
  generalize hStart : d.setup setup = started
  cases setUp_of_eq hStart with
  | present hPresent => exact hSound hPresent
  | plain _ _ => rfl
  | created _ _ _ => rfl
  | listening _ _ _ => rfl

theorem callStateChange_keeps
    (state : ReadyState) :
    (d.callStateChange state).session.isSome =
        d.session.isSome ∧
      (d.callStateChange state).service = d.service := by
  rcases d.callStateChange_cases state with
    ⟨_, hSame⟩ | ⟨s, _, _, hSession, hFrame⟩
  · rw [hSame]
    exact ⟨rfl, rfl⟩
  · rw [hFrame, hSession]
    exact ⟨rfl, rfl⟩

theorem setupTimer_keeps (d : Impl) :
    d.setupTimer.session = d.session ∧
      d.setupTimer.service = d.service := by
  unfold setupTimer
  split <;> exact ⟨rfl, rfl⟩

/- An open keeps the session, or creates both. -/
theorem openPlain_keeps
    (hSound : d.Sound)
    (setup : Setup) :
    (d.openPlain setup).Sound ∧
      (d.session.isSome = true →
        (d.openPlain setup).session.isSome = true) := by
  unfold openPlain
  split
  · exact ⟨hSound, id⟩
  · have hTimer := (d.setup setup).setupTimer_keeps
    have hCall :=
      callStateChange_keeps (d := (d.setup setup).setupTimer)
        .opened
    constructor
    · intro _
      rw [hCall.2, hTimer.2]
      exact setup_service hSound setup
    · intro hSession
      rw [hCall.1, hTimer.1, setup_of_some hSession]
      exact hSession

theorem openWith_keeps
    (hSound : d.Sound)
    (method uri : Bytes)
    (async : Bool)
    (setup : Setup) :
    (d.openWith method uri async setup).Sound ∧
      (d.session.isSome = true →
        (d.openWith method uri async
          setup).session.isSome = true) := by
  unfold openWith prepare
  cases proccessUri uri with
  | none => exact ⟨hSound, id⟩
  | some elements =>
      exact openPlain_keeps (by exact hSound) setup

end Impl

end Network

------------------------------------------------------------
-- Steps
------------------------------------------------------------

namespace Network

namespace Impl

variable {d d' : Impl}

/- An event of an opened request keeps both. -/
theorem stepOpened_keeps
    {event : OpenedEvent}
    (hStep : d.stepOpened event = some d') :
    d'.service = d.service ∧
      d'.session.isSome = d.session.isSome := by
  rcases stepOpened_cases hStep with
    hSettled | ⟨_, s, jobs, hSession, hRuns⟩ |
      ⟨s, timer, timeouts, hSession, _, rfl⟩
  · refine ⟨hSettled.service, ?_⟩
    rw [hSettled.session, Option.isSome_map]
  · rcases hRuns.runsSession with ⟨_, _, _, _, _, rfl⟩
    rw [hSession]
    exact ⟨rfl, rfl⟩
  · rw [hSession]
    exact ⟨rfl, rfl⟩

/- A session that there is stays, with its io_service. -/
theorem step_keeps
    {event : RequestEvent}
    (hSound : d.Sound)
    (hStep : d.step event = some d') :
    d'.Sound ∧
      (d.session.isSome = true →
        d'.session.isSome = true) := by
  cases event with
  | openPlain setup =>
      rw [← Option.some.inj hStep]
      exact openPlain_keeps hSound setup
  | openWith method uri async setup =>
      rw [← Option.some.inj hStep]
      exact openWith_keeps hSound _ _ _ _
  | openAuth method uri async user password setup =>
      rw [← Option.some.inj hStep]
      exact openWith_keeps hSound _ _ _ _
  | _ =>
      have hOpened : d.stepOpened ⟨_, rfl⟩ = some d' := hStep
      rcases stepOpened_keeps hOpened with
        ⟨hService, hSession⟩
      rw [Sound, hService, hSession]
      exact ⟨hSound, id⟩

theorem construction_sound (construction : Construction) :
    construction.request.Sound := by
  have hCreate
      (method url : Bytes)
      (async : Bool)
      (setup : Setup) :
      (create method url async setup).Sound := by
    refine fun _ => setup_service ?_ setup
    unfold prepare
    simp only
    split <;> exact nofun
  cases construction with
  | empty => exact nofun
  | create method url async setup =>
      exact hCreate method url async setup
  | createFromView method url async setup =>
      exact hCreate _ _ async setup

end Impl

end Network
