import XMLHttpRequest.Library.Monitor
import XMLHttpRequest.Request.Calls
import XMLHttpRequest.Request.Recording

/-
  What a request holds of what its closures were told.

  `readyState` and `response` are set by the closures only,
  and a send that posts its jobs takes the response back.  In
  every state they are the last of what has been told.

  Key definitions include:
    * `Network.Impl.log`
    * `Network.Impl.Mirrors`
    * `Network.Impl.stepSince`

  Key theorems include:
    * `Network.Impl.step_mirrors`
    * `Network.Impl.step_posts`
    * `Network.Impl.holds_last_run`
-/

------------------------------------------------------------
-- Telling
------------------------------------------------------------

namespace Network

namespace Impl

/- What the session has invoked since it was created. -/
def log (d : Impl) : List Invocation :=
  match d.session with
  | some s => s.log
  | none => []

/- What is held is the last of what has been told since. -/
def Mirrors (d d' : Impl) : Prop :=
  ∃ entries,
    d'.log = d.log ++ entries ∧
    d'.readyState =
      (statesOf entries).getLastD d.readyState ∧
    d'.response =
      ((answersOf entries).getLast?.map (·.rp)).or d.response

variable {d d' d'' : Impl}

theorem log_of_session
    {s : HttpTlsSession}
    (hSession : d.session = some s) :
    d.log = s.log := by
  unfold log
  rw [hSession]

/- Nothing has been told. -/
theorem mirrors_of_log
    (hLog : d'.log = d.log)
    (hState : d'.readyState = d.readyState)
    (hResponse : d'.response = d.response) :
    Mirrors d d' :=
  ⟨[], hLog.trans (List.append_nil _).symm, hState, hResponse⟩

theorem Mirrors.refl (d : Impl) : Mirrors d d :=
  mirrors_of_log rfl rfl rfl

theorem Mirrors.trans
    (hFirst : Mirrors d d')
    (hSecond : Mirrors d' d'') :
    Mirrors d d'' := by
  rcases hFirst with ⟨earlier, hLog, hState, hResponse⟩
  rcases hSecond with ⟨later, hLog', hState', hResponse'⟩
  refine ⟨earlier ++ later, ?_, ?_, ?_⟩
  · rw [hLog', hLog, List.append_assoc]
  · rw [hState', hState, statesOf_append]
    simp only [List.getLastD_eq_getLast?,
      List.getLast?_append]
    cases (statesOf later).getLast? <;> rfl
  · rw [hResponse', hResponse, answersOf_append,
      List.getLast?_append]
    cases (answersOf later).getLast? <;> rfl

/- A session that is absorbed has told what it has logged. -/
theorem absorb_mirrors
    {s s' : HttpTlsSession}
    {entries : List Invocation}
    (hSession : d.session = some s)
    (hLog : s'.log = s.log ++ entries) :
    Mirrors d (d.absorb s.log.length s') := by
  have hDrop : s'.log.drop s.log.length = entries := by
    rw [hLog, List.drop_left]
  refine ⟨entries, ?_, ?_, d.absorb_response hDrop⟩
  · rw [log_of_session hSession, ← hLog]
    rfl
  · rw [absorb, hDrop]
    exact d.foldl_notice_readyState entries

theorem AbsorbsRun.mirrors
    {s : HttpTlsSession}
    (hRuns : d.AbsorbsRun d' s)
    (hSession : d.session = some s) :
    Mirrors d d' := by
  rcases hRuns with ⟨events, s', hExec, rfl⟩
  rcases (exec_extends hExec).log with ⟨entries, hLog, _⟩
  exact absorb_mirrors hSession hLog

end Impl

end Network

------------------------------------------------------------
-- Steps
------------------------------------------------------------

namespace Network

namespace Impl

variable {d d' : Impl}

theorem callStateChange_mirrors
    (d : Impl)
    (state : ReadyState) :
    Mirrors d (d.callStateChange state) := by
  unfold callStateChange
  split
  · exact .refl d
  · rename_i s hSession
    exact absorb_mirrors hSession rfl

/- A new session has invoked nothing. -/
theorem setup_mirrors
    (d : Impl)
    (setup : Setup) :
    Mirrors d (d.setup setup) := by
  generalize hStart : d.setup setup = started
  cases setUp_of_eq hStart with
  | present _ => exact .refl d
  | plain hNone _ => exact mirrors_of_log rfl rfl rfl
  | created hNone _ _ | listening hNone _ _ =>
      refine mirrors_of_log ?_ rfl rfl
      unfold log
      rw [hNone]
      rfl

theorem openPlain_mirrors
    (d : Impl)
    (setup : Setup) :
    Mirrors d (d.openPlain setup) := by
  unfold openPlain
  split
  · exact .refl d
  · have hArmed :
        Mirrors (d.setup setup) (d.setup setup).setupTimer := by
      unfold setupTimer
      split
      · exact .refl _
      · exact mirrors_of_log rfl rfl rfl
    exact ((d.setup_mirrors setup).trans hArmed).trans
      (callStateChange_mirrors _ .opened)

theorem openWith_mirrors
    (d : Impl)
    (method uri : Bytes)
    (async : Bool)
    (setup : Setup) :
    Mirrors d (d.openWith method uri async setup) := by
  unfold openWith prepare
  cases proccessUri uri with
  | none => exact mirrors_of_log rfl rfl rfl
  | some elements =>
      have hOpened := openPlain_mirrors
        { d with
          isAsync := async
          addr := elements.addr
          port := elements.port
          proto := elements.protocol
          urn := elements.urn
          method := toUpper method } setup
      exact hOpened

theorem abort_mirrors
    (hAbort : d.abort = some d') :
    Mirrors d d' := by
  rcases abort_cases hAbort with ⟨s, hSession, rfl⟩
  refine mirrors_of_log ?_ rfl rfl
  rw [log_of_session hSession]
  exact HttpTlsSession.stop_log _

/- What the io_service runs tells what the session invokes. -/
theorem served_mirrors
    {event : RequestEvent}
    (hServed : event.isServed = true)
    (hStep : d.step event = some d') :
    Mirrors d d' := by
  cases event with
  | job outcome =>
      rcases unlessStopped_cases hStep with rfl | ⟨_, hJob⟩
      · exact .refl _
      · rcases nextJob_cases hJob with
          rfl | ⟨jobs, rfl | ⟨s, hSession, hRuns⟩⟩
        · exact .refl _
        · exact mirrors_of_log rfl rfl rfl
        · have hMirrors := hRuns.mirrors hSession
          exact hMirrors
  | handler event =>
      rcases unlessStopped_cases hStep with rfl | ⟨_, hRun⟩
      · exact .refl _
      · rcases runHandler_cases hRun with
          rfl | ⟨s, hSession, hRuns⟩
        · exact .refl _
        · exact hRuns.mirrors hSession
  | timer code =>
      rcases unlessStopped_cases hStep with rfl | ⟨_, hTimer⟩
      · exact .refl _
      · rcases timerDone_cases hTimer with
          rfl | ⟨timer, rfl | ⟨s, hSession, _, _, rfl⟩⟩
        · exact .refl _
        · exact mirrors_of_log rfl rfl rfl
        · refine mirrors_of_log ?_ rfl rfl
          rw [log_of_session hSession]
          exact HttpTlsSession.stop_log _
  | timerCancelled =>
      rcases unlessStopped_cases hStep with rfl | ⟨_, hTimer⟩
      · exact .refl _
      · rcases timerCancelled_cases hTimer with
          rfl | ⟨timer, rfl⟩
        · exact .refl _
        · exact mirrors_of_log rfl rfl rfl
  | _ => cases hServed

theorem Settled.log
    {event : RequestEvent}
    (hSettled : Settled event d d') :
    d'.log = d.log := by
  unfold Impl.log
  rw [hSettled.session]
  cases d.session with
  | none => rfl
  | some s =>
      rcases settle_eq event s with ⟨_, _, _, hSet⟩
      simp only [Option.map_some, hSet]

/- An event that does not post tells what it invokes. -/
theorem step_mirrors
    {event : RequestEvent}
    (hNothing : d.serves event = false)
    (hStep : d.step event = some d') :
    Mirrors d d' := by
  have hSet
      (hSets : event.sets = true) :
      Mirrors d d' := by
    have hCalled := sets_called hSets hStep
    rw [hNothing] at hCalled
    exact mirrors_of_log (settled_of_sets hSets hStep).log
      hCalled.readyState hCalled.response
  cases event with
  | openPlain setup =>
      rw [← Option.some.inj hStep]
      exact d.openPlain_mirrors setup
  | openWith method uri async setup =>
      rw [← Option.some.inj hStep]
      exact d.openWith_mirrors method uri async setup
  | openAuth method uri async user password setup =>
      rw [← Option.some.inj hStep]
      have hOpened := d.openWith_mirrors method uri async setup
      exact hOpened
  | abort => exact abort_mirrors hStep
  | job outcome => exact served_mirrors rfl hStep
  | handler event => exact served_mirrors rfl hStep
  | timer code => exact served_mirrors rfl hStep
  | timerCancelled => exact served_mirrors rfl hStep
  | _ => exact hSet rfl

/- One that posts tells nothing and takes the response back. -/
theorem step_posts
    {event : RequestEvent}
    (hPosts : d.serves event = true)
    (hStep : d.step event = some d') :
    d'.log = d.log ∧ d'.readyState = d.readyState ∧
      d'.response = none := by
  have hSets : event.sets = true := by
    cases event <;> first | rfl | cases hPosts
  have hCalled := sets_called hSets hStep
  rw [hPosts] at hCalled
  exact ⟨(settled_of_sets hSets hStep).log,
    hCalled.readyState, hCalled.response⟩

end Impl

end Network

------------------------------------------------------------
-- Runs
------------------------------------------------------------

namespace Network

namespace Impl

/- The number of answers given when a send posted last. -/
def sinceSend
    (since : Nat)
    (d : Impl)
    (event : RequestEvent)
    (_d' : Impl) : Nat :=
  if d.serves event then (answersOf d.log).length else since

/- A request, and the answers that were given before its send. -/
def stepSince :
    Impl × Nat → RequestEvent → Option (Impl × Nat) :=
  Transition.observed step sinceSend

/- The last state told, and the last answer since the send. -/
structure HoldsLast (watched : Impl × Nat) : Prop where
  readyState :
    watched.1.readyState =
      (statesOf watched.1.log).getLastD .unsent
  response :
    watched.1.response =
      ((answersOf watched.1.log).drop watched.2).getLast?.map
        (·.rp)
  since : watched.2 ≤ (answersOf watched.1.log).length

theorem HoldsLast.step
    {watched next : Impl × Nat}
    {event : RequestEvent}
    (hHolds : HoldsLast watched)
    (hStep : stepSince watched event = some next) :
    HoldsLast next := by
  rcases watched with ⟨d, since⟩
  rcases next with ⟨d', since'⟩
  rcases Transition.observed_eq_some_iff.mp hStep with
    ⟨hNext, hSince⟩
  simp only [sinceSend] at hNext hSince
  cases hPosts : d.serves event with
  | true =>
      rcases step_posts hPosts hNext with
        ⟨hLog, hState, hNone⟩
      rw [hPosts, if_pos rfl] at hSince
      subst hSince
      refine ⟨?_, ?_, ?_⟩
      · simp only [hState, hLog]
        exact hHolds.readyState
      · simp only [hNone, hLog, List.drop_length]
        rfl
      · simp only [hLog]
        exact Nat.le_refl _
  | false =>
      rcases step_mirrors hPosts hNext with
        ⟨entries, hLog, hState, hResponse⟩
      rw [hPosts, if_neg Bool.false_ne_true] at hSince
      subst hSince
      have hBound : since' ≤ (answersOf d.log).length :=
        hHolds.since
      have hBefore :
          d.readyState = (statesOf d.log).getLastD .unsent :=
        hHolds.readyState
      have hHeld :
          d.response =
            ((answersOf d.log).drop since').getLast?.map
              (·.rp) := hHolds.response
      refine ⟨?_, ?_, ?_⟩
      · simp only [hState, hLog, statesOf_append, hBefore,
          List.getLastD_eq_getLast?, List.getLast?_append]
        cases (statesOf entries).getLast? <;> rfl
      · simp only [hResponse, hLog, answersOf_append, hHeld,
          List.drop_append_of_le_length hBound,
          List.getLast?_append]
        cases (answersOf entries).getLast? <;> rfl
      · simp only [hLog, answersOf_append, List.length_append]
        exact Nat.le_add_right_of_le hBound

theorem construction_holdsLast
    (construction : Construction) :
    HoldsLast (construction.request, 0) := by
  have hSilent
      {d : Impl}
      (hMirrors : Mirrors {} d) :
      HoldsLast (d, 0) := by
    rcases hMirrors with ⟨entries, hLog, hState, hResponse⟩
    have hEntries : d.log = entries := hLog
    refine ⟨?_, ?_, Nat.zero_le _⟩
    · rw [hState, hEntries]
    · rw [hResponse, hEntries, List.drop_zero]
      cases (answersOf entries).getLast? <;> rfl
  have hCreate
      (method url : Bytes)
      (async : Bool)
      (setup : Setup) :
      HoldsLast (create method url async setup, 0) := by
    apply hSilent
    have hPrepared :
        Mirrors {} (({} : Impl).prepare method url async).1 := by
      unfold prepare
      simp only
      split <;> exact mirrors_of_log rfl rfl rfl
    exact hPrepared.trans (setup_mirrors _ setup)
  cases construction with
  | empty => exact hSilent (.refl _)
  | create method url async setup =>
      exact hCreate method url async setup
  | createFromView method url async setup =>
      exact hCreate _ _ async setup

/-
  However a request is constructed and whatever is done with
  it, its state is the one that was told last, and its
  response is that of the last answer since a send posted its
  jobs, if there has been one.
-/
theorem holds_last_run
    (construction : Construction)
    {events : List RequestEvent}
    {watched : Impl × Nat}
    (hRun :
      Transition.exec stepSince (construction.request, 0)
        events = some watched) :
    HoldsLast watched :=
  Transition.invariant
    (fun _ _ _ hHolds _ hStep => hHolds.step hStep)
    (construction_holdsLast construction)
    (Transition.along_true _ _) hRun

/- A request with a ready callback sends and is answered. -/
def answeredRun : List RequestEvent :=
  openRoot true :: .setOnReadyCallback (some 1) :: .send ::
    submitJobs ++
    [.handler
      (.readDone {} 1
        { upcalls := [.callback (.streamClose 1)]
          rv := 1 })]

theorem holds_last_run_answered :
    ∃ watched,
      Transition.exec stepSince
          ((Construction.empty).request, 0) answeredRun =
        some watched ∧
      watched.1.response.isSome = true ∧
      HoldsLast watched := by
  have hAnswered :
      (Transition.exec step {} answeredRun).map
          (·.response.isSome) = some true := by
    decide +kernel
  rcases Option.map_eq_some_iff.mp hAnswered with
    ⟨d, hRun, hSome⟩
  rcases Transition.exec_observed hRun 0 with
    ⟨since, hWatched⟩
  exact ⟨(d, since), hWatched, hSome,
    holds_last_run .empty hWatched⟩

end Impl

end Network
