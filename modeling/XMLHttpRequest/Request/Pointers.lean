import XMLHttpRequest.Library.Transition
import XMLHttpRequest.Request.Whole
import XMLHttpRequest.Session.Halting

/-
  The two pointers that a request may not have yet.

  For every operation the uses of `d->session` and of
  `d->service` are listed, each with the state in which it
  happens.  Some operations test the pointers first, and some
  do not.

  Key definitions include:
    * `Network.Impl.Use`
    * `Network.Impl.eventUses`
    * `Network.Operation`
    * `Network.Impl.stepServed`

  Key theorems include:
    * `Network.Impl.servedUses_valid`
    * `Network.Impl.stepServed_ready`
    * `Network.Impl.usesValid_along_iff`
-/

------------------------------------------------------------
-- Uses
------------------------------------------------------------

namespace Network

/- A pointer member of `XMLHttpRequest::Impl`. -/
inductive Pointer
  | session
  | service
  deriving DecidableEq, Repr

namespace Impl

def isSet (d : Impl) : Pointer → Bool
  | .session => d.session.isSome
  | .service => d.service

/- A use of a pointer, and the state in which it happens. -/
structure Use where
  pointer : Pointer
  state : Impl

/- The pointers used are set. -/
def Valid (uses : List Use) : Prop :=
  ∀ use ∈ uses, use.state.isSet use.pointer = true

variable (d : Impl)

/- Uses that happen in one state. -/
def uses (pointers : List Pointer) : List Use :=
  pointers.map fun pointer => ⟨pointer, d⟩

end Impl

end Network

------------------------------------------------------------
-- Uses by Calls
------------------------------------------------------------

namespace Network

namespace Impl

variable (d : Impl)

def initCallbacksUses : List Use :=
  if d.readyState ≠ .unsent then []
  else
    match d.session with
    | none => d.uses [.session]
    | some s =>
        d.uses [.session] ++
          (if s.onReadyStateChange.isSome then []
            else d.uses [.session]) ++
          d.uses [.session] ++
          (if s.onStopCb.isSome then []
            else d.uses [.session])

/- `setupSession` gives the new session its io_service. -/
def setupSessionUses (setup : Setup) : List Use :=
  if setup.tls then { d with service := true }.uses [.service]
  else []

def setupUses (setup : Setup) : List Use :=
  match d.session with
  | some _ => []
  | none =>
      d.setupSessionUses setup ++
        let (d, ok) := d.setupSession setup
        if ok then d.initCallbacksUses else []

def setupTimerUses : List Use :=
  if d.timeout ≤ 0 then [] else d.uses [.service]

/- `getOnStateChangeCallback` of a session that is set. -/
def callStateChangeUses : List Use :=
  if d.session.isSome then d.uses [.session] else []

def openPlainUses (setup : Setup) : List Use :=
  if .opened ≤ d.readyState then []
  else
    d.setupUses setup ++ (d.setup setup).setupTimerUses ++
      (d.setup setup).setupTimer.callStateChangeUses

def openWithUses
    (method uri : Bytes)
    (async : Bool)
    (setup : Setup) : List Use :=
  let (d, ok) := d.prepare method uri async
  if ok then d.openPlainUses setup else []

def createUses
    (method url : Bytes)
    (async : Bool)
    (setup : Setup) : List Use :=
  (({} : Impl).prepare method url async).1.setupUses setup

/- A setter of a callback tests for a session. -/
def setCallbackUses : List Use :=
  if d.session.isNone then [] else d.uses [.session]

/- The jobs are posted, and the io_service is run. -/
def postUses : List Use :=
  if ! d.service || d.session.isNone then []
  else d.uses [.service, .service, .service]

def sendUses : List Use :=
  match methodFromString d.method with
  | .get => d.postUses
  | .post => d.postUses
  | .unknown => []

def sendWithCallbackUses (cb : UserFunction) : List Use :=
  match d.session with
  | none => []
  | some _ =>
      d.setCallbackUses ++ (d.setOnReadyCallback cb).sendUses

def abortUses : List Use :=
  d.uses [.service, .session]

end Impl

end Network

------------------------------------------------------------
-- Uses on the Service
------------------------------------------------------------

namespace Network

namespace Impl

variable (d : Impl)

/-
  The closure of the ready callback uses the session of a
  synchronous request to stop it.
-/
def closureUses
    (seen : Nat)
    (s : HttpTlsSession) : List Use :=
  if d.isAsync then []
  else
    d.uses
      (((s.log.drop seen).filter (·.isReady)).map
        fun _ => .session)

/- The uses by closures while the session does something. -/
def onSessionUses
    (s : HttpTlsSession)
    (operation : HttpTlsSession → Option HttpTlsSession) :
    List Use :=
  match operation (d.enter s) with
  | none => []
  | some s' => d.closureUses s.log.length s'

def connectUses (connection : Connection) : List Use :=
  match d.session with
  | none => d.uses [.session]
  | some s =>
      d.uses [.session] ++
        if s.stopped then
          d.uses [.session] ++
            d.onSessionUses s fun s =>
              (s.startResolve connection).map (·.1)
        else []

/- `Impl::fetch` tests for a session, its caller does not. -/
def submitRequestUses
    (s : HttpTlsSession)
    (body : Bool)
    (submission : Submission) : List Use :=
  match methodFromString d.method with
  | .unknown => d.uses [.session]
  | method =>
      let submitted :=
        (d.enter s).submit
          { url := d.submittedUrl
            method := stringFromEnum method
            header := d.header
            body := body }
          submission
      d.uses [.session] ++
        match submitted with
        | none => []
        | some (s', _, id) =>
            d.closureUses s.log.length s' ++
              if id < 0 then d.uses [.session] else []

def fetchUses (submission : Submission) : List Use :=
  match d.session with
  | none => d.uses [.session]
  | some s =>
      d.uses [.session] ++
        if s.stopped then []
        else d.submitRequestUses s false submission

def fetchWithBodyUses
    (submission : Submission) : List Use :=
  match d.session with
  | none => d.uses [.session]
  | some s => d.submitRequestUses s true submission

def runJobUses (outcome : JobOutcome) : Job → List Use
  | .connect => d.connectUses outcome.connection
  | .fetch => d.fetchUses outcome.submission
  | .fetchWithBody => d.fetchWithBodyUses outcome.submission

def nextJobUses (outcome : JobOutcome) : List Use :=
  match d.jobs with
  | [] => []
  | job :: jobs =>
      { d with jobs := jobs }.runJobUses outcome job

def runHandlerUses (event : SessionEvent) : List Use :=
  match d.session with
  | none => []
  | some s => d.onSessionUses s (·.step event)

def runTimerUses (code : ErrorCode) : List Use :=
  if code.failed then []
  else
    { d with
      timeouts := d.timeouts ++ [d.timerCallback] }.abortUses

def timerDoneUses (code : ErrorCode) : List Use :=
  match d.timer.waits with
  | 0 => []
  | waits + 1 =>
      { d with timer := { d.timer with waits := waits } }
        |>.runTimerUses code

def timerCancelledUses : List Use :=
  match d.timer.cancelled with
  | 0 => []
  | cancelled + 1 =>
      { d with
        timer := { d.timer with cancelled := cancelled } }
        |>.runTimerUses .operationAborted

end Impl

end Network

------------------------------------------------------------
-- Operations
------------------------------------------------------------

namespace Network

/- The event is run by the io_service. -/
def RequestEvent.isServed : RequestEvent → Bool
  | .job _ => true
  | .handler _ => true
  | .timer _ => true
  | .timerCancelled => true
  | _ => false

/- What happens to a request, its end included. -/
inductive Operation
  | event (event : RequestEvent)
  | destroy

namespace Impl

variable (d : Impl)

/- The uses of the pointers in the course of an event. -/
def eventUses : RequestEvent → List Use
  | .openPlain setup => d.openPlainUses setup
  | .openWith method uri async setup =>
      d.openWithUses method uri async setup
  | .openAuth method uri async _ _ setup =>
      d.openWithUses method uri async setup
  | .setRequestHeader _ _ => []
  | .setTimeout _ => []
  | .setOnTimeoutCallback _ => []
  | .setOnReadyCallback _ => d.setCallbackUses
  | .setOnStateChangedCallback _ => d.setCallbackUses
  | .overrideMimeType _ => d.uses [.session]
  | .send => d.sendUses
  | .sendWithCallback cb => d.sendWithCallbackUses cb
  | .sendBody _ => d.postUses
  | .abort => d.abortUses
  | .job outcome =>
      if d.serviceStopped then [] else d.nextJobUses outcome
  | .handler event =>
      if d.serviceStopped then [] else d.runHandlerUses event
  | .timer code =>
      if d.serviceStopped then [] else d.timerDoneUses code
  | .timerCancelled =>
      if d.serviceStopped then [] else d.timerCancelledUses

/- The event runs the io_service. -/
def serves : RequestEvent → Bool
  | .send =>
      d.service && d.session.isSome &&
        methodFromString d.method ≠ .unknown
  | .sendWithCallback _ =>
      d.service && d.session.isSome &&
        methodFromString d.method ≠ .unknown
  | .sendBody _ => d.service && d.session.isSome
  | _ => false

/-
  The uses of an operation.  Before the io_service has been
  run it runs nothing.
-/
def operationUses
    (served : Impl × Bool) : Operation → List Use
  | .event event =>
      if event.isServed && ! served.2 then []
      else served.1.eventUses event
  | .destroy => served.1.abortUses

/- A request, and whether its io_service has been run. -/
def stepServed
    (served : Impl × Bool) :
    Operation → Option (Impl × Bool)
  | .event event =>
      if event.isServed && ! served.2 then some served
      else
        (served.1.step event).map fun d =>
          (d, served.2 || served.1.serves event)
  -- nothing happens to a request after its end
  | .destroy => none

def UsesValid
    (served : Impl × Bool)
    (operation : Operation) : Prop :=
  Valid (operationUses served operation)

/-
  A request is aborted, destroyed or given a MIME type only
  when it has a session.
-/
def HasSession
    (served : Impl × Bool) : Operation → Prop
  | .event (.overrideMimeType _) =>
      served.1.session.isSome = true
  | .event .abort => served.1.session.isSome = true
  | .destroy => served.1.session.isSome = true
  | _ => True

end Impl

/- The uses of the pointers by a constructor. -/
def Construction.uses : Construction → List Impl.Use
  | .empty => []
  | .create method url async setup =>
      Impl.createUses method url async setup
  | .createFromView method url async setup =>
      Impl.createUses method.data url.data async setup

end Network

------------------------------------------------------------
-- Whole Requests
------------------------------------------------------------

namespace Network

namespace Impl

variable {d d' : Impl}

@[simp] theorem valid_nil : Valid [] := by
  simp [Valid]

@[simp] theorem valid_append_iff (first second : List Use) :
    Valid (first ++ second) ↔
      Valid first ∧ Valid second := by
  simp only [Valid, List.mem_append, or_imp, forall_and]

@[simp] theorem valid_uses_iff (pointers : List Pointer) :
    Valid (d.uses pointers) ↔
      ∀ pointer ∈ pointers, d.isSet pointer = true := by
  simp [Valid, uses]

theorem Whole.isSet
    (hWhole : d.Whole)
    (pointer : Pointer) :
    d.isSet pointer = true := by
  cases pointer with
  | session => exact hWhole.session
  | service => exact hWhole.service

theorem Whole.valid
    (hWhole : d.Whole)
    (pointers : List Pointer) :
    Valid (d.uses pointers) :=
  (valid_uses_iff pointers).mpr fun pointer _ =>
    hWhole.isSet pointer

theorem valid_session
    (hSession : d.session.isSome = true) :
    Valid (d.uses [.session]) := by
  simpa [isSet] using hSession

theorem initCallbacksUses_valid
    (hSession : d.session.isSome = true) :
    Valid d.initCallbacksUses := by
  have hUse := valid_session hSession
  unfold initCallbacksUses
  split
  · exact valid_nil
  · split
    · exact hUse
    · simp only [valid_append_iff]
      refine ⟨⟨⟨hUse, ?_⟩, hUse⟩, ?_⟩ <;> split
      · exact valid_nil
      · exact hUse
      · exact valid_nil
      · exact hUse

theorem setupUses_valid (setup : Setup) :
    Valid (d.setupUses setup) := by
  unfold setupUses
  split
  · exact valid_nil
  · rw [valid_append_iff]
    unfold setupSessionUses setupSession
    cases setup.tls with
    | false => exact ⟨valid_nil, valid_nil⟩
    | true =>
        exact ⟨by simp [isSet], initCallbacksUses_valid rfl⟩

theorem openPlainUses_valid
    (hSound : d.Sound)
    (setup : Setup) :
    Valid (d.openPlainUses setup) := by
  unfold openPlainUses
  split
  · exact valid_nil
  · simp only [valid_append_iff]
    refine ⟨⟨setupUses_valid setup, ?_⟩, ?_⟩
    · unfold setupTimerUses
      split
      · exact valid_nil
      · simpa [isSet] using setup_service hSound setup
    · unfold callStateChangeUses
      split
      · rename_i hSome
        exact valid_session hSome
      · exact valid_nil

theorem openWithUses_valid
    (hSound : d.Sound)
    (method uri : Bytes)
    (async : Bool)
    (setup : Setup) :
    Valid (d.openWithUses method uri async setup) := by
  unfold openWithUses prepare
  cases proccessUri uri with
  | none => exact valid_nil
  | some elements =>
      exact openPlainUses_valid (by exact hSound) setup

theorem setCallbackUses_valid (d : Impl) :
    Valid d.setCallbackUses := by
  unfold setCallbackUses
  split
  · exact valid_nil
  · rename_i hSome
    exact valid_session
      (by simpa [Option.isSome_iff_ne_none] using hSome)

theorem postUses_valid (d : Impl) :
    Valid d.postUses := by
  unfold postUses
  split
  · exact valid_nil
  · rename_i hReady
    have hService : d.service = true := by
      cases hService : d.service with
      | true => rfl
      | false => simp [hService] at hReady
    simpa [isSet] using hService

theorem sendUses_valid (d : Impl) :
    Valid d.sendUses := by
  unfold sendUses
  split
  · exact d.postUses_valid
  · exact d.postUses_valid
  · exact valid_nil

theorem sendWithCallbackUses_valid
    (d : Impl)
    (cb : UserFunction) :
    Valid (d.sendWithCallbackUses cb) := by
  unfold sendWithCallbackUses
  split
  · exact valid_nil
  · exact (valid_append_iff _ _).mpr
      ⟨d.setCallbackUses_valid, sendUses_valid _⟩

theorem abortUses_valid_iff (hSound : d.Sound) :
    Valid d.abortUses ↔ d.session.isSome = true := by
  constructor
  · intro hValid
    exact (valid_uses_iff _).mp hValid .session (by simp)
  · intro hSession
    exact (Whole.mk hSession (hSound hSession)).valid _

/- What the io_service runs for a whole request. -/
theorem closureUses_valid
    (hWhole : d.Whole)
    (seen : Nat)
    (s : HttpTlsSession) :
    Valid (d.closureUses seen s) := by
  unfold closureUses
  split
  · exact valid_nil
  · exact hWhole.valid _

theorem onSessionUses_valid
    (hWhole : d.Whole)
    (s : HttpTlsSession)
    (operation : HttpTlsSession → Option HttpTlsSession) :
    Valid (d.onSessionUses s operation) := by
  unfold onSessionUses
  split
  · exact valid_nil
  · exact closureUses_valid hWhole _ _

theorem submitRequestUses_valid
    (hWhole : d.Whole)
    (s : HttpTlsSession)
    (body : Bool)
    (submission : Submission) :
    Valid (d.submitRequestUses s body submission) := by
  unfold submitRequestUses
  split
  · exact hWhole.valid _
  · refine (valid_append_iff _ _).mpr ⟨hWhole.valid _, ?_⟩
    split
    · exact valid_nil
    · refine (valid_append_iff _ _).mpr
        ⟨closureUses_valid hWhole _ _, ?_⟩
      split
      · exact hWhole.valid _
      · exact valid_nil

theorem runJobUses_valid
    (hWhole : d.Whole)
    (outcome : JobOutcome)
    (job : Job) :
    Valid (d.runJobUses outcome job) := by
  have hUse := hWhole.valid [.session]
  cases job with
  | connect =>
      simp only [runJobUses, connectUses]
      split
      · exact hUse
      · refine (valid_append_iff _ _).mpr ⟨hUse, ?_⟩
        split
        · exact (valid_append_iff _ _).mpr
            ⟨hUse, onSessionUses_valid hWhole _ _⟩
        · exact valid_nil
  | fetch =>
      simp only [runJobUses, fetchUses]
      split
      · exact hUse
      · refine (valid_append_iff _ _).mpr ⟨hUse, ?_⟩
        split
        · exact valid_nil
        · exact submitRequestUses_valid hWhole _ _ _
  | fetchWithBody =>
      simp only [runJobUses, fetchWithBodyUses]
      split
      · exact hUse
      · exact submitRequestUses_valid hWhole _ _ _

theorem runTimerUses_valid
    (hWhole : d.Whole)
    (code : ErrorCode) :
    Valid (d.runTimerUses code) := by
  unfold runTimerUses
  split
  · exact valid_nil
  · refine Whole.valid ?_ _
    exact ⟨hWhole.session, hWhole.service⟩

end Impl

end Network

------------------------------------------------------------
-- Steps
------------------------------------------------------------

namespace Network

namespace Impl

variable {d d' : Impl}

/- What the io_service runs finds both pointers set. -/
theorem servedUses_valid
    (hWhole : d.Whole)
    {event : RequestEvent}
    (hServed : event.isServed = true) :
    Valid (d.eventUses event) := by
  unfold RequestEvent.isServed at hServed
  split at hServed
  · simp only [eventUses, nextJobUses]
    split
    · exact valid_nil
    · split
      · exact valid_nil
      · refine runJobUses_valid ?_ _ _
        exact ⟨hWhole.session, hWhole.service⟩
  · simp only [eventUses, runHandlerUses]
    split
    · exact valid_nil
    · split
      · exact valid_nil
      · exact onSessionUses_valid hWhole _ _
  · simp only [eventUses, timerDoneUses]
    split
    · exact valid_nil
    · split
      · exact valid_nil
      · refine runTimerUses_valid ?_ _
        exact ⟨hWhole.session, hWhole.service⟩
  · simp only [eventUses, timerCancelledUses]
    split
    · exact valid_nil
    · split
      · exact valid_nil
      · refine runTimerUses_valid ?_ _
        exact ⟨hWhole.session, hWhole.service⟩
  · cases hServed

/-
  Before the io_service has been run there may be no session,
  and afterwards there is one.
-/
structure Ready (served : Impl × Bool) : Prop where
  sound : served.1.Sound
  served : served.2 = true → served.1.session.isSome = true

theorem Ready.whole
    {served : Impl × Bool}
    (hReady : Ready served)
    (hServed : served.2 = true) :
    served.1.Whole :=
  ⟨hReady.served hServed,
    hReady.sound (hReady.served hServed)⟩

/- A call that does not test the pointers needs a session. -/
theorem usesValid_iff
    {served : Impl × Bool}
    (hReady : Ready served)
    (operation : Operation) :
    UsesValid served operation ↔
      HasSession served operation := by
  cases operation with
  | destroy => exact abortUses_valid_iff hReady.sound
  | event event =>
      simp only [UsesValid, operationUses]
      cases hServed : event.isServed with
      | true =>
          have hTrivial :
              HasSession served (.event event) := by
            cases event <;> trivial
          refine iff_of_true ?_ hTrivial
          split
          · exact valid_nil
          · rename_i hRun
            exact servedUses_valid
              (hReady.whole (by simpa using hRun)) hServed
      | false =>
          simp only [Bool.false_and, Bool.false_eq_true,
            if_false]
          cases event with
          | openPlain setup =>
              exact iff_of_true
                (openPlainUses_valid hReady.sound setup)
                trivial
          | openWith method uri async setup =>
              exact iff_of_true
                (openWithUses_valid hReady.sound _ _ _ _)
                trivial
          | openAuth method uri async user password setup =>
              exact iff_of_true
                (openWithUses_valid hReady.sound _ _ _ _)
                trivial
          | setRequestHeader name value =>
              exact iff_of_true valid_nil trivial
          | setTimeout milliseconds =>
              exact iff_of_true valid_nil trivial
          | setOnTimeoutCallback cb =>
              exact iff_of_true valid_nil trivial
          | setOnReadyCallback cb =>
              exact iff_of_true (setCallbackUses_valid _)
                trivial
          | setOnStateChangedCallback cb =>
              exact iff_of_true (setCallbackUses_valid _)
                trivial
          | overrideMimeType mime =>
              simp [eventUses, isSet, HasSession]
          | send =>
              exact iff_of_true (sendUses_valid _) trivial
          | sendWithCallback cb =>
              exact iff_of_true
                (sendWithCallbackUses_valid _ cb) trivial
          | sendBody body =>
              exact iff_of_true (postUses_valid _) trivial
          | abort => exact abortUses_valid_iff hReady.sound
          | _ => cases hServed

/- The io_service is only run for a request with a session. -/
theorem session_of_serves
    {event : RequestEvent}
    (hServes : d.serves event = true) :
    d.session.isSome = true := by
  unfold serves at hServes
  split at hServes
  · simp only [Bool.and_eq_true] at hServes
    exact hServes.1.2
  · simp only [Bool.and_eq_true] at hServes
    exact hServes.1.2
  · simp only [Bool.and_eq_true] at hServes
    exact hServes.2
  · cases hServes

theorem stepServed_ready
    {served next : Impl × Bool}
    {operation : Operation}
    (hReady : Ready served)
    (hStep : stepServed served operation = some next) :
    Ready next := by
  cases operation with
  | destroy => cases hStep
  | event event =>
      simp only [stepServed] at hStep
      split at hStep
      · exact Option.some.inj hStep ▸ hReady
      · rcases Option.map_eq_some_iff.mp hStep with
          ⟨d, hEvent, rfl⟩
        have hKeeps := step_keeps hReady.sound hEvent
        refine ⟨hKeeps.1, fun hServed => hKeeps.2 ?_⟩
        rcases Bool.or_eq_true_iff.mp hServed with
          hBefore | hServes
        · exact hReady.served hBefore
        · exact session_of_serves hServes

end Impl

end Network

------------------------------------------------------------
-- Runs
------------------------------------------------------------

namespace Network

/- A constructor uses a session that it has created. -/
theorem Construction.uses_valid
    (construction : Construction) :
    Impl.Valid construction.uses := by
  cases construction with
  | empty => exact Impl.valid_nil
  | create method url async setup =>
      exact Impl.setupUses_valid setup
  | createFromView method url async setup =>
      exact Impl.setupUses_valid setup

namespace Impl

/-
  Every use of a pointer in the life of a request finds it set
  exactly when the request is aborted, destroyed and given a
  MIME type only once it has a session.
-/
theorem usesValid_along_iff
    (construction : Construction)
    (operations : List Operation) :
    (Valid construction.uses ∧
        Transition.Along stepServed UsesValid
          (construction.request, false) operations) ↔
      Transition.Along stepServed HasSession
        (construction.request, false) operations := by
  rw [and_iff_right construction.uses_valid]
  apply Transition.along_congr (I := Ready)
  · intro served operation hReady
    exact usesValid_iff hReady operation
  · intro served operation next hReady _ hStep
    exact stepServed_ready hReady hStep
  · exact ⟨construction_sound construction, nofun⟩

/- A request is destroyed before it has been opened. -/
theorem destroyed_unopened :
    ¬ (Valid Construction.empty.uses ∧
        Transition.Along stepServed UsesValid
          (Construction.empty.request, false)
          [.destroy]) := by
  rintro ⟨_, hAlong⟩
  have hSet :=
    (valid_uses_iff _).mp hAlong.1 .service (by decide)
  cases hSet

end Impl

end Network
