import XMLHttpRequest.Library.Monitor
import XMLHttpRequest.Request.Answers
import XMLHttpRequest.Request.Whole

/-
  Which requests record their response.

  The response is stored, and a synchronous session stopped,
  by the closure of the ready callback alone.  It is installed
  when a callback, even an empty one, is passed to a request
  with a session; a callback that is passed earlier is lost.

  Key definitions include:
    * `Network.Impl.PassedCallback`
    * `Network.Impl.stepPassed`
    * `Network.Impl.Records`
    * `Network.Impl.Hears`

  Key theorems include:
    * `Network.Impl.deliver_close_records_iff`
    * `Network.Impl.stepPassed_listens`
    * `Network.Impl.records_iff_heard`
-/

------------------------------------------------------------
-- Passed Callbacks
------------------------------------------------------------

namespace Network

/- The ready callback that a call of the user passes. -/
def RequestEvent.passes : RequestEvent → Option UserFunction
  | .setOnReadyCallback cb => some cb
  | .sendWithCallback cb => some cb
  | _ => none

namespace Impl

/-
  The ready callback that was passed last, an empty one if
  there was none, and whether one was passed to a request with
  a session.
-/
structure PassedCallback where
  last : UserFunction := none
  heard : Bool := false

def passedAfter
    (passed : PassedCallback)
    (d : Impl)
    (event : RequestEvent)
    (_ : Impl) : PassedCallback :=
  match event.passes with
  | some cb =>
      { last := cb
        heard := passed.heard || d.session.isSome }
  | none => passed

def stepPassed :
    Impl × PassedCallback →
      RequestEvent → Option (Impl × PassedCallback) :=
  Transition.observed step passedAfter

/-
  The close of stream `id`, whose entry is `strm`, records the
  response of the stream, invokes the callback that was passed
  last, and stops the session of a synchronous request.
-/
def Records
    (d : Impl)
    (s : HttpTlsSession)
    (last : UserFunction)
    (id : StreamId)
    (strm : Stream) : Prop :=
  (d.deliver (.streamClose id)).response = some strm.rp ∧
  ∃ s', (d.deliver (.streamClose id)).session = some s' ∧
    (last.isSome = true →
      answersOf s'.log =
        answersOf s.log ++
          [⟨⟨last⟩, id, strm.rq, strm.rp⟩]) ∧
    (d.isAsync = false → s'.stopped = true)

/-
  The closure of the ready callback has been installed if a
  callback has been heard.  Otherwise there is no response.
-/
structure Hears
    (d : Impl)
    (passed : PassedCallback) : Prop where
  installed :
    ∀ s, d.session = some s →
      s.onReadyCb =
        if passed.heard then some ⟨passed.last⟩ else none
  silent : passed.heard = false → d.response = none

variable {d d' : Impl}
variable {passed : PassedCallback}

/- A close is recorded if a callback has been heard. -/
theorem deliver_close_records_iff
    (hHears : Hears d passed)
    {s : HttpTlsSession}
    (hSession : d.session = some s)
    {id : StreamId}
    {strm : Stream}
    (hFound : s.findStream id = some strm) :
    Records d s passed.last id strm ↔
      passed.heard = true := by
  rcases d.deliver_answers hSession (.streamClose id) with
    ⟨s', hAfter, _, hAnswers, hStopped, _, hResponse⟩
  have hInstalled := hHears.installed s hSession
  cases hHeard : passed.heard with
  | true =>
      rw [hHeard, if_pos rfl] at hInstalled
      have hAnswer :
          s.toCallbackState.answer? (.streamClose id) =
            some ⟨⟨passed.last⟩, id, strm.rq, strm.rp⟩ := by
        simp only [CallbackState.answer?, hFound,
          hInstalled]
      rw [hAnswer] at hAnswers hStopped hResponse
      refine iff_of_true ⟨hResponse, s', hAfter, ?_, ?_⟩ rfl
      · exact fun _ => hAnswers
      · intro hSync
        rw [hStopped, hSync]
        simp
  | false =>
      rw [hHeard, if_neg Bool.false_ne_true] at hInstalled
      have hAnswer :
          s.toCallbackState.answer? (.streamClose id) =
            none := by
        simp only [CallbackState.answer?, hFound,
          hInstalled]
      rw [hAnswer, hHears.silent hHeard] at hResponse
      refine iff_of_false ?_ Bool.false_ne_true
      intro hRecords
      have hSome := hResponse.symm.trans hRecords.1
      cases hSome

end Impl

end Network

------------------------------------------------------------
-- Steps
------------------------------------------------------------

namespace Network

namespace Impl

variable {d d' : Impl}
variable {passed : PassedCallback}

/- Without a closure there is no answer. -/
theorem answersOf_of_extends
    {s s' : HttpTlsSession}
    (hExtends : HttpTlsSession.Extends s s')
    (hNone : s.onReadyCb = none) :
    answersOf (s'.log.drop s.log.length) = [] := by
  rcases hExtends.log with ⟨entries, hLog, hInstalled⟩
  rw [hLog, List.drop_left]
  apply List.filterMap_eq_nil_iff.mpr
  intro entry hEntry
  have hEntryInstalled := hInstalled entry hEntry
  cases entry with
  | call call =>
      cases call with
      | stateChange closure state => rfl
      | ready closure id rq rp =>
          have hSet : s.onReadyCb = some closure :=
            hEntryInstalled
          rw [hNone] at hSet
          cases hSet
  | started closure => rfl
  | stopped closure => rfl

/- What the session does keeps the callback. -/
theorem absorb_hears
    (hHears : Hears d passed)
    {s s' : HttpTlsSession}
    (hSession : d.session = some s)
    (hExtends : HttpTlsSession.Extends (d.enter s) s') :
    Hears (d.absorb s.log.length s') passed := by
  have hCallback : s'.onReadyCb = s.onReadyCb :=
    hExtends.onReadyCb
  constructor
  · intro s₂ hAfter
    rcases d.absorb_eq s.log.length s' with ⟨_, _, hFrame⟩
    rw [hFrame, Option.some.injEq] at hAfter
    rw [← hAfter, hCallback]
    exact hHears.installed s hSession
  · intro hSilent
    have hNone := hHears.installed s hSession
    rw [hSilent, if_neg Bool.false_ne_true] at hNone
    have hNothing := answersOf_of_extends hExtends hNone
    rw [d.absorb_response rfl]
    have hDrop :
        answersOf (s'.log.drop s.log.length) = [] :=
      hNothing
    rw [hDrop]
    exact hHears.silent hSilent

theorem exec_extends
    {s s' : HttpTlsSession}
    {events : List SessionEvent}
    (hExec :
      Transition.exec HttpTlsSession.step s events =
        some s') :
    HttpTlsSession.Extends s s' := by
  induction events generalizing s with
  | nil => exact Option.some.inj hExec ▸ .refl s
  | cons event events ih =>
      rcases Transition.exec_cons_eq_some_iff.mp hExec with
        ⟨next, hStep, hRest⟩
      have hQueued :
          s.stepQueued (.session event) = some next := hStep
      exact (HttpTlsSession.stepQueued_extends
        hQueued).trans (ih hRest)

/- The callback that is passed is what is set. -/
theorem sets_of_passes
    {event : RequestEvent}
    {cb : UserFunction}
    (hPasses : event.passes = some cb) :
    event.sets = true ∧
      ∀ s : HttpTlsSession,
        (settle event s).onReadyCb = some ⟨cb⟩ := by
  unfold RequestEvent.passes at hPasses
  split at hPasses
  · cases hPasses
    exact ⟨rfl, fun _ => rfl⟩
  · cases hPasses
    exact ⟨rfl, fun _ => rfl⟩
  · cases hPasses

/- Nothing else sets the ready callback. -/
theorem settle_onReadyCb
    {event : RequestEvent}
    (hPasses : event.passes = none)
    (s : HttpTlsSession) :
    (settle event s).onReadyCb = s.onReadyCb := by
  unfold settle
  split <;> first | rfl | cases hPasses

theorem hears_of_none
    (hNone : d.session = none)
    (hSilent : d.response = none) :
    Hears d passed := by
  refine ⟨?_, fun _ => hSilent⟩
  intro s hSome
  rw [hNone] at hSome
  cases hSome

/- An open answers nothing, and sets no ready callback. -/
theorem callStateChange_hears
    (hHears : Hears d passed)
    (state : ReadyState) :
    Hears (d.callStateChange state) passed := by
  unfold callStateChange
  split
  · exact hHears
  · rename_i s hSession
    refine absorb_hears hHears hSession
      ⟨rfl, rfl, rfl, rfl, _, rfl, ?_⟩
    intro entry hEntry
    rcases List.mem_map.mp hEntry with ⟨call, hCall, rfl⟩
    exact s.toCallbackState.callStateChange_installed state
      call hCall

theorem setup_hears
    (hHears : Hears d passed)
    (hUnheard : d.session = none → passed.heard = false)
    (setup : Setup) :
    Hears (d.setup setup) passed := by
  generalize hStart : d.setup setup = started
  cases setUp_of_eq hStart with
  | present _ => exact hHears
  | plain hSession _ =>
      exact hears_of_none hSession
        (hHears.silent (hUnheard hSession))
  | created hSession _ _ | listening hSession _ _ =>
      have hNone := hUnheard hSession
      refine ⟨?_, fun _ => hHears.silent hNone⟩
      intro s hNew
      rw [← Option.some.inj hNew, hNone]
      rfl

theorem openPlain_hears
    (hHears : Hears d passed)
    (hUnheard : d.session = none → passed.heard = false)
    (setup : Setup) :
    Hears (d.openPlain setup) passed := by
  unfold openPlain
  split
  · exact hHears
  · refine callStateChange_hears ?_ .opened
    have hSetup := setup_hears hHears hUnheard setup
    unfold setupTimer
    split
    · exact hSetup
    · exact ⟨hSetup.installed, hSetup.silent⟩

theorem openWith_hears
    (hHears : Hears d passed)
    (hUnheard : d.session = none → passed.heard = false)
    (method uri : Bytes)
    (async : Bool)
    (setup : Setup) :
    Hears (d.openWith method uri async setup) passed := by
  unfold openWith prepare
  cases proccessUri uri with
  | none => exact ⟨hHears.installed, hHears.silent⟩
  | some elements =>
      refine openPlain_hears ?_ (by exact hUnheard) setup
      exact ⟨hHears.installed, hHears.silent⟩

/- What is known of a request and the passed callbacks. -/
structure Listens (watched : Impl × PassedCallback) :
    Prop extends Hears watched.1 watched.2 where
  sound : watched.1.Sound
  session :
    watched.2.heard = true →
      watched.1.session.isSome = true

theorem Listens.unheard
    {watched : Impl × PassedCallback}
    (hListens : Listens watched)
    (hNone : watched.1.session = none) :
    watched.2.heard = false := by
  cases hHeard : watched.2.heard with
  | false => rfl
  | true =>
      have hSome := hListens.session hHeard
      rw [hNone] at hSome
      cases hSome

/- A callback that is passed. -/
theorem passed_hears
    (hListens : Listens (d, passed))
    {event : RequestEvent}
    {cb : UserFunction}
    (hPasses : event.passes = some cb)
    (hStep : d.step event = some d') :
    Hears d'
      { last := cb
        heard := passed.heard || d.session.isSome } := by
  rcases sets_of_passes hPasses with ⟨hSets, hSet⟩
  have hSettled := settled_of_sets hSets hStep
  constructor
  · intro s' hAfter
    rw [hSettled.session] at hAfter
    rcases Option.map_eq_some_iff.mp hAfter with
      ⟨s, hBefore, rfl⟩
    rw [hSet s, hBefore, Option.isSome_some, Bool.or_true,
      if_pos rfl]
  · intro hSilent
    simp only [Bool.or_eq_false_iff] at hSilent
    rcases hSettled.response with hSame | hReset
    · exact hSame.trans (hListens.silent hSilent.1)
    · exact hReset

/- Any other event of an opened request. -/
theorem stepOpened_hears
    (hHears : Hears d passed)
    {event : OpenedEvent}
    (hPasses : event.1.passes = none)
    (hStep : d.stepOpened event = some d') :
    Hears d' passed := by
  rcases stepOpened_cases hStep with
    hSettled | ⟨_, s, jobs, hSession, events, s', hExec, rfl⟩ |
      ⟨s, timer, timeouts, hSession, _, rfl⟩
  · constructor
    · intro s' hAfter
      rw [hSettled.session] at hAfter
      rcases Option.map_eq_some_iff.mp hAfter with
        ⟨s, hBefore, rfl⟩
      rw [settle_onReadyCb hPasses]
      exact hHears.installed s hBefore
    · intro hSilent
      rcases hSettled.response with hSame | hReset
      · exact hSame.trans (hHears.silent hSilent)
      · exact hReset
  · refine absorb_hears ?_ hSession (exec_extends hExec)
    exact ⟨hHears.installed, hHears.silent⟩
  · refine ⟨?_, hHears.silent⟩
    intro s' hAfter
    rw [Option.some.injEq] at hAfter
    rw [← hAfter, HttpTlsSession.stop_toCallbackState]
    exact hHears.installed s hSession

/- Every event keeps track of the callback. -/
theorem stepPassed_listens
    {watched next : Impl × PassedCallback}
    {event : RequestEvent}
    (hListens : Listens watched)
    (hStep : stepPassed watched event = some next) :
    Listens next := by
  rcases Transition.observed_eq_some_iff.mp hStep with
    ⟨hNext, hPassed⟩
  have hKeeps := step_keeps hListens.sound hNext
  have hHears : Hears next.1 next.2 := by
    rw [hPassed, passedAfter]
    cases hPasses : event.passes with
    | some cb => exact passed_hears hListens hPasses hNext
    | none =>
        have hUnheard := hListens.unheard
        cases event with
        | openPlain setup =>
            rw [← Option.some.inj hNext]
            exact openPlain_hears hListens.toHears hUnheard
              setup
        | openWith method uri async setup =>
            rw [← Option.some.inj hNext]
            exact openWith_hears hListens.toHears hUnheard
              method uri async setup
        | openAuth method uri async user password setup =>
            rw [← Option.some.inj hNext]
            have hOpened := openWith_hears hListens.toHears
              hUnheard method uri async setup
            exact ⟨hOpened.installed, hOpened.silent⟩
        | _ =>
            have hOpened :
                watched.1.stepOpened ⟨_, rfl⟩ =
                  some next.1 := hNext
            exact stepOpened_hears hListens.toHears hPasses
              hOpened
  refine ⟨hHears, hKeeps.1, fun hHeard => hKeeps.2 ?_⟩
  rw [hPassed, passedAfter] at hHeard
  split at hHeard
  · rcases Bool.or_eq_true_iff.mp hHeard with
      hBefore | hNow
    · exact hListens.session hBefore
    · exact hNow
  · exact hListens.session hHeard

end Impl

end Network

------------------------------------------------------------
-- Runs
------------------------------------------------------------

namespace Network

namespace Impl

variable {d : Impl}
variable {passed : PassedCallback}

theorem deliver_hears
    (hHears : Hears d passed)
    (c : Callback) :
    Hears (d.deliver c) passed := by
  unfold deliver
  split
  · rename_i s hSession
    exact absorb_hears hHears hSession
      ((d.enter s).runCallback_extends c)
  · exact hHears

theorem deliverAll_hears
    (hHears : Hears d passed)
    (callbacks : List Callback) :
    Hears (d.deliverAll callbacks) passed := by
  induction callbacks generalizing d with
  | nil => exact hHears
  | cons c callbacks ih => exact ih (deliver_hears hHears c)

theorem construction_listens (construction : Construction) :
    Listens (construction.request, {}) := by
  have hCreate
      (method url : Bytes)
      (async : Bool)
      (setup : Setup) :
      Hears (create method url async setup) {} := by
    refine setup_hears ?_ (fun _ => rfl) setup
    unfold prepare
    simp only
    split <;> exact hears_of_none rfl rfl
  refine ⟨?_, construction_sound construction, nofun⟩
  cases construction with
  | empty => exact hears_of_none rfl rfl
  | create method url async setup =>
      exact hCreate method url async setup
  | createFromView method url async setup =>
      exact hCreate _ _ async setup

/-
  After any calls, jobs and handlers and any callbacks of
  nghttp2, the close of a stream in the map is recorded
  exactly when some callback has been passed to the request
  while it had a session.
-/
theorem records_iff_heard
    (construction : Construction)
    (events : List RequestEvent)
    (d : Impl)
    (passed : PassedCallback)
    (hRun :
      Transition.exec stepPassed (construction.request, {})
        events = some (d, passed))
    (callbacks : List Callback)
    (s : HttpTlsSession)
    (hSession : (d.deliverAll callbacks).session = some s)
    (id : StreamId)
    (strm : Stream)
    (hFound : s.findStream id = some strm) :
    Records (d.deliverAll callbacks) s passed.last id strm ↔
      passed.heard = true := by
  have hListens : Listens (d, passed) :=
    Transition.invariant
      (fun _ _ _ hListens _ hStep =>
        stepPassed_listens hListens hStep)
      (construction_listens construction)
      (Transition.along_true _ events) hRun
  exact deliver_close_records_iff
    (deliverAll_hears hListens.toHears callbacks) hSession
    hFound

/- The callback is set once the request has been opened. -/
def lateCallbackRun : List RequestEvent :=
  [openRoot false, .setOnReadyCallback (some 0), .send] ++
    submitJobs

theorem records_late_callback :
    ∃ d passed s strm,
      Transition.exec stepPassed
          (Construction.empty.request, {})
          lateCallbackRun = some (d, passed) ∧
      passed.heard = true ∧
      Records (d.deliverAll []) s passed.last 1 strm := by
  have hEnd :
      (Transition.exec stepPassed
          (Construction.empty.request, {})
          lateCallbackRun).map
          (fun watched =>
            (watched.2.heard,
              (watched.1.session.bind
                (·.findStream 1)).isSome)) =
        some (true, true) := by
    decide +kernel
  rcases Option.map_eq_some_iff.mp hEnd with
    ⟨⟨d, passed⟩, hRun, hState⟩
  simp only [Prod.mk.injEq] at hState
  rcases Option.isSome_iff_exists.mp hState.2 with
    ⟨strm, hStream⟩
  rcases Option.bind_eq_some_iff.mp hStream with
    ⟨s, hSession, hFound⟩
  exact ⟨d, passed, s, strm, hRun, hState.1,
    (records_iff_heard .empty lateCallbackRun d passed hRun
      [] s hSession 1 strm hFound).mpr hState.1⟩

/- The callback is set before the request has a session. -/
def earlyCallbackRun : List RequestEvent :=
  [.setOnReadyCallback (some 0), openRoot false, .send] ++
    submitJobs

/-
  The stream of the request closes.  Its response is not
  stored, and the synchronous session is not stopped.
-/
theorem early_callback_lost :
    ∃ d passed s strm,
      Transition.exec stepPassed
          (Construction.empty.request, {})
          earlyCallbackRun = some (d, passed) ∧
      d.session = some s ∧
      s.findStream 1 = some strm ∧
      d.isAsync = false ∧
      passed.last = some 0 ∧
      (d.deliver (.streamClose 1)).response = none ∧
      (d.deliver (.streamClose 1)).session.map (·.stopped) =
        some false ∧
      ¬ Records d s passed.last 1 strm := by
  have hEnd :
      (Transition.exec stepPassed
          (Construction.empty.request, {})
          earlyCallbackRun).map
          (fun watched =>
            ((watched.1.session.bind
                (·.findStream 1)).isSome,
              watched.1.isAsync, watched.2.last,
              (watched.1.deliver (.streamClose 1)).response,
              (watched.1.deliver
                (.streamClose 1)).session.map
                (·.stopped))) =
        some (true, false, some 0, none, some false) := by
    decide +kernel
  rcases Option.map_eq_some_iff.mp hEnd with
    ⟨⟨d, passed⟩, hRun, hState⟩
  simp only [Prod.mk.injEq] at hState
  rcases Option.isSome_iff_exists.mp hState.1 with
    ⟨strm, hStream⟩
  rcases Option.bind_eq_some_iff.mp hStream with
    ⟨s, hSession, hFound⟩
  have hLost := hState.2.2.2.1
  refine ⟨d, passed, s, strm, hRun, hSession, hFound,
    hState.2.1, hState.2.2.1, hLost, hState.2.2.2.2, ?_⟩
  intro hRecords
  have hStored := hLost.symm.trans hRecords.1
  cases hStored

end Impl

end Network
