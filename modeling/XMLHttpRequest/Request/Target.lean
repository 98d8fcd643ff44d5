import XMLHttpRequest.Request.Frames

/-
  Whether the session of a request is for the host and port
  that the request names.

  The request and its session both hold the target.  The
  session takes it over when it is created and never changes
  it, while every open with an acceptable URI changes that of
  the request.

  Key definitions include:
    * `Network.Impl.Targeted`
    * `Network.Impl.KeepsTarget`
    * `Network.Construction`

  Key theorems include:
    * `Network.HttpTlsSession.exec_sameTarget`
    * `Network.Impl.step_targeted_iff`
    * `Network.Impl.targeted_along_iff`
-/

------------------------------------------------------------
-- Sessions
------------------------------------------------------------

namespace Network

namespace HttpTlsSession

/- The sessions resolve the same host and port. -/
def SameTarget (s s' : HttpTlsSession) : Prop :=
  s'.host = s.host ∧ s'.port = s.port

variable {s s' s'' : HttpTlsSession}

theorem SameTarget.trans
    (hFirst : SameTarget s s')
    (hSecond : SameTarget s' s'') :
    SameTarget s s'' :=
  ⟨hSecond.1.trans hFirst.1, hSecond.2.trans hFirst.2⟩

theorem Kept.sameTarget
    (hKept : Kept s s') :
    SameTarget s s' :=
  ⟨hKept.host, hKept.port⟩

theorem readHandler_sameTarget
    {ec : ErrorCode}
    {n : Nat}
    {recv : Recv}
    (hHandler : s.readHandler ec n recv = some s') :
    SameTarget s s' := by
  rcases readHandler_cases hHandler with
    ⟨_, rfl⟩ | ⟨_, kept, hKept, ⟨_, rfl⟩ | ⟨_, rfl⟩⟩
  · exact ⟨rfl, rfl⟩
  · exact hKept.sameTarget
  · exact hKept.sameTarget

theorem onSocketConnected_sameTarget
    {connection : Connection}
    (hConnected : s.onSocketConnected connection = some s') :
    SameTarget s s' := by
  cases socketConnected_of_some hConnected with
  | greets _ hWrite =>
      have hGreeting : SameTarget s s.greeting := ⟨rfl, rfl⟩
      refine (hGreeting.trans
        (write_kept _ hWrite).sameTarget).trans ?_
      unfold read
      split <;> exact ⟨rfl, rfl⟩
  | again _ => exact ⟨rfl, rfl⟩

theorem startConnect_sameTarget (connection : Connection) :
    SameTarget s (s.startConnect connection).1 := by
  generalize hStart : (s.startConnect connection).1 = started
  cases connectStarted_of_eq hStart with
  | running _ => exact ⟨rfl, rfl⟩
  | closed _ => exact ⟨rfl, rfl⟩
  | failed _ =>
      exact (stop_undisturbed
        { s with sock := s.sock.close }).kept.sameTarget

/- The host and port that are resolved stay. -/
theorem startResolve_sameTarget
    {connection : Connection}
    {ok : Bool}
    (hResolve : s.startResolve connection = some (s', ok)) :
    SameTarget s s' := by
  have hConnect :=
    startConnect_sameTarget (s := s) connection
  cases resolveStarted_of_some hResolve with
  | unresolved _ => exact s.stop_undisturbed.kept.sameTarget
  | unconnected _ _ =>
      exact hConnect.trans
        (stop_undisturbed _).kept.sameTarget
  | connected _ _ hConnected =>
      refine (hConnect.trans
        (onSocketConnected_sameTarget hConnected)).trans ?_
      unfold invokeOnStart
      split <;> exact ⟨rfl, rfl⟩

theorem step_sameTarget
    {event : SessionEvent}
    (hStep : s.step event = some s') :
    SameTarget s s' := by
  cases step_handled hStep with
  | startResolve connection ok hResolve =>
      exact startResolve_sameTarget hResolve
  | readDone ec n recv reads hReads hHandler =>
      have hSame := readHandler_sameTarget hHandler
      exact ⟨hSame.1, hSame.2⟩
  | readCancelled recv reads hReads hSame =>
      exact hSame ▸ ⟨rfl, rfl⟩
  | idle event hSame => exact hSame ▸ ⟨rfl, rfl⟩
  | _ =>
      refine (step_kept ?_ ?_ ?_ hStep).sameTarget
      all_goals
        intros
        simp

theorem exec_sameTarget
    {events : List SessionEvent}
    (hExec :
      Transition.exec step s events = some s') :
    SameTarget s s' := by
  induction events generalizing s with
  | nil =>
      cases hExec
      exact ⟨rfl, rfl⟩
  | cons event events ih =>
      rcases Transition.exec_cons_eq_some_iff.mp hExec with
        ⟨next, hStep, hRest⟩
      exact (step_sameTarget hStep).trans (ih hRest)

end HttpTlsSession

end Network

------------------------------------------------------------
-- Targets
------------------------------------------------------------

namespace Network

namespace Impl

/- The session, if there is one, is for the request's target. -/
def Targeted (d : Impl) : Prop :=
  ∀ s, d.session = some s →
    s.host = d.addr ∧ s.port = d.port

/- The step leaves a request with such a session. -/
def LeavesTargeted
    (d : Impl)
    (event : RequestEvent) : Prop :=
  ∀ d', d.step event = some d' → d'.Targeted

/- The URI is not accepted, or has the target of `d`. -/
def NamesTarget (d : Impl) (uri : Bytes) : Prop :=
  ∀ elements, proccessUri uri = some elements →
    elements.addr = d.addr ∧ elements.port = d.port

/-
  An open finds no session, or its URI names the target that
  the request has already.
-/
def KeepsTarget (d : Impl) : RequestEvent → Prop
  | .openWith _ uri _ _ =>
      d.session.isSome = true → d.NamesTarget uri
  | .openAuth _ uri _ _ _ _ =>
      d.session.isSome = true → d.NamesTarget uri
  | _ => True

variable {d d' : Impl}

theorem targeted_of_none
    (hNone : d.session = none) :
    d.Targeted := by
  intro s hSession
  rw [hNone] at hSession
  cases hSession

/- The new session is for the target of `d`, or it stays. -/
theorem targeted_of_sameTarget
    {s s' : HttpTlsSession}
    (hTargeted : d.Targeted)
    (hSession : d.session = some s)
    (hSame : s.SameTarget s')
    (hAfter : d'.session = some s')
    (hAddr : d'.addr = d.addr)
    (hPort : d'.port = d.port) :
    d'.Targeted := by
  intro s₂ hSome
  rw [hAfter] at hSome
  cases hSome
  have hBefore := hTargeted s hSession
  rw [hSame.1, hSame.2, hAddr, hPort]
  exact hBefore

theorem runsSession_targeted
    {s : HttpTlsSession}
    (hTargeted : d.Targeted)
    (hSession : d.session = some s)
    (hRuns : d.RunsSession d' s) :
    d'.Targeted := by
  rcases hRuns with ⟨events, s', _, _, hExec, rfl⟩
  have hEnter : s.SameTarget (d.enter s) := ⟨rfl, rfl⟩
  exact targeted_of_sameTarget hTargeted hSession
    (hEnter.trans (HttpTlsSession.exec_sameTarget hExec))
    rfl rfl rfl

end Impl

end Network

------------------------------------------------------------
-- Opening
------------------------------------------------------------

namespace Network

namespace Impl

variable (d : Impl)

theorem callStateChange_targeted_iff (state : ReadyState) :
    (d.callStateChange state).Targeted ↔ d.Targeted := by
  rcases d.callStateChange_cases state with
    ⟨_, hSame⟩ | ⟨s, _, _, hSession, hFrame⟩
  · rw [hSame]
  · rw [hFrame]
    simp [Targeted, hSession]

theorem setupTimer_targeted_iff :
    d.setupTimer.Targeted ↔ d.Targeted := by
  unfold setupTimer
  split <;> exact Iff.rfl

/- A session that is created gets the target of the request. -/
theorem setup_targeted_iff (setup : Setup) :
    (d.setup setup).Targeted ↔ d.Targeted := by
  generalize hStart : d.setup setup = started
  cases setUp_of_eq hStart with
  | present _ => exact Iff.rfl
  | plain hSession _ =>
      exact iff_of_true (targeted_of_none hSession)
        (targeted_of_none hSession)
  | created hSession _ _ | listening hSession _ _ =>
      refine iff_of_true ?_ (targeted_of_none hSession)
      intro s hSome
      cases hSome
      exact ⟨rfl, rfl⟩

theorem openPlain_targeted_iff (setup : Setup) :
    (d.openPlain setup).Targeted ↔ d.Targeted := by
  unfold openPlain
  split
  · exact Iff.rfl
  · rw [callStateChange_targeted_iff,
      setupTimer_targeted_iff, setup_targeted_iff]

/- An accepted URI is the target from then on. -/
theorem openWith_targeted_iff
    (hTargeted : d.Targeted)
    (method uri : Bytes)
    (async : Bool)
    (setup : Setup) :
    (d.openWith method uri async setup).Targeted ↔
      (d.session.isSome = true → d.NamesTarget uri) := by
  unfold openWith prepare NamesTarget
  cases hUri : proccessUri uri with
  | none =>
      simp only [Bool.false_eq_true, if_false]
      exact iff_of_true hTargeted (by simp)
  | some elements =>
      simp only [if_true, openPlain_targeted_iff,
        Option.some.injEq, forall_eq']
      cases hSession : d.session with
      | none => simp [Targeted]
      | some s =>
          have hBefore := hTargeted s hSession
          simp [Targeted, hBefore.1, hBefore.2, eq_comm]

theorem openAuth_targeted_iff
    (hTargeted : d.Targeted)
    (method uri : Bytes)
    (async : Bool)
    (user password : Bytes)
    (setup : Setup) :
    (d.openAuth method uri async user password
        setup).Targeted ↔
      (d.session.isSome = true → d.NamesTarget uri) :=
  d.openWith_targeted_iff hTargeted method uri async setup

end Impl

end Network

------------------------------------------------------------
-- Steps
------------------------------------------------------------

namespace Network

namespace Impl

variable {d d' : Impl}

/- An aborted session is that of before. -/
theorem stopped_targeted
    {s : HttpTlsSession}
    (hTargeted : d.Targeted)
    (hSession : d.session = some s)
    (hAfter :
      d'.session =
        some
          (d.enter { s with serviceStopped := true }).stop)
    (hAddr : d'.addr = d.addr)
    (hPort : d'.port = d.port) :
    d'.Targeted := by
  have hSame :
      s.SameTarget
        (d.enter { s with serviceStopped := true }) :=
    ⟨rfl, rfl⟩
  exact targeted_of_sameTarget hTargeted hSession
    (hSame.trans
      (HttpTlsSession.stop_undisturbed _).kept.sameTarget)
    hAfter hAddr hPort

/- The target is only changed by an open. -/
theorem stepOpened_targeted
    (hTargeted : d.Targeted)
    {event : OpenedEvent}
    (hStep : d.stepOpened event = some d') :
    d'.Targeted := by
  rcases stepOpened_cases hStep with
    hSettled | ⟨_, s, jobs, hSession, hRuns⟩ |
      ⟨s, timer, timeouts, hSession, _, rfl⟩
  · intro s' hAfter
    have hUnmoved := hSettled.unmoved
    rcases hUnmoved.session s' hAfter with
      ⟨s, _, _, _, hBefore, rfl⟩
    rw [hUnmoved.addr, hUnmoved.port]
    exact hTargeted s hBefore
  · have hJobs : { d with jobs := jobs }.Targeted :=
      hTargeted
    exact runsSession_targeted hJobs hSession
      hRuns.runsSession
  · exact stopped_targeted hTargeted hSession rfl rfl rfl

/- All steps but an open with another target keep the target. -/
theorem step_targeted_iff
    (hTargeted : d.Targeted)
    (event : RequestEvent) :
    d.LeavesTargeted event ↔ d.KeepsTarget event := by
  unfold LeavesTargeted
  cases event with
  | openPlain setup =>
      refine iff_of_true ?_ trivial
      intro d' hStep
      rw [← Option.some.inj hStep]
      exact (d.openPlain_targeted_iff setup).mpr hTargeted
  | openWith method uri async setup =>
      simp only [step, Option.some.injEq, forall_eq']
      exact d.openWith_targeted_iff hTargeted method uri
        async setup
  | openAuth method uri async user password setup =>
      simp only [step, Option.some.injEq, forall_eq']
      exact d.openAuth_targeted_iff hTargeted method uri
        async user password setup
  | _ =>
      refine iff_of_true ?_ trivial
      intro d' hStep
      have hOpened : d.stepOpened ⟨_, rfl⟩ = some d' := hStep
      exact stepOpened_targeted hTargeted hOpened

end Impl

end Network

------------------------------------------------------------
-- Runs
------------------------------------------------------------

namespace Network

/- A call of one of the three constructors. -/
inductive Construction
  | empty
  | create
      (method url : Bytes)
      (async : Bool)
      (setup : Setup)
  | createFromView
      (method url : StringView)
      (async : Bool)
      (setup : Setup)

def Construction.request : Construction → Impl
  | .empty => {}
  | .create method url async setup =>
      Impl.create method url async setup
  | .createFromView method url async setup =>
      Impl.createFromView method url async setup

namespace Impl

/- A constructor creates the session after it has the target. -/
theorem create_targeted
    (method url : Bytes)
    (async : Bool)
    (setup : Setup) :
    (create method url async setup).Targeted := by
  unfold create
  rw [setup_targeted_iff]
  apply targeted_of_none
  unfold prepare
  simp only
  split <;> rfl

theorem construction_targeted (construction : Construction) :
    construction.request.Targeted := by
  cases construction with
  | empty => exact targeted_of_none rfl
  | create method url async setup =>
      exact create_targeted method url async setup
  | createFromView method url async setup =>
      exact create_targeted _ _ async setup

/-
  Every state that a run of a new request reaches has its
  session, if any, for the request's target exactly when
  every step of the run keeps the target.
-/
theorem targeted_along_iff
    (construction : Construction)
    (events : List RequestEvent) :
    Transition.Along step LeavesTargeted
        construction.request events ↔
      Transition.Along step KeepsTarget
        construction.request events := by
  apply Transition.along_congr (I := Targeted)
  · intro d event hTargeted
    exact step_targeted_iff hTargeted event
  · intro d event d' _ hLeaves hStep
    exact hLeaves d' hStep
  · exact construction_targeted construction

/-
  A constructor that is given no acceptable URI creates a
  session for no host, and a later open names one.
-/
theorem invalid_then_open_not_targeted :
    ¬ Transition.Along step LeavesTargeted
      (Construction.create (ascii "GET") [] true
        freshSetup).request
      [openRoot true] := by
  intro hAlong
  have hState :
      ((create (ascii "GET") [] true freshSetup).openWith
        (ascii "GET") (ascii "https://a.com/") true
        freshSetup).session.map (·.host) = some [] ∧
      ((create (ascii "GET") [] true freshSetup).openWith
        (ascii "GET") (ascii "https://a.com/") true
        freshSetup).addr = ascii "a.com" := by
    decide +kernel
  rcases Option.map_eq_some_iff.mp hState.1 with
    ⟨s, hSession, hHost⟩
  have hSame : s.host = ascii "a.com" :=
    (hAlong.1 _ rfl s hSession).1.trans hState.2
  exact absurd (hHost.symm.trans hSame) (by decide)

end Impl

end Network
