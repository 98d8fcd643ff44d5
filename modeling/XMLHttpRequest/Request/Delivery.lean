import XMLHttpRequest.Request.Mirror
import XMLHttpRequest.Session.Delivery

/-
  From the bytes that a request reads to its response.

  What the io_service runs lets the session hear all that is
  received, and what the session answers is what the request
  holds.  A response that is read up to the close of its
  stream becomes the response of the request.

  Key definitions include:
    * `Network.RequestEvent.streamEvents`
    * `Network.Impl.received`

  Key theorems include:
    * `Network.Impl.served_relays`
    * `Network.Impl.response_of_exchange`
-/

------------------------------------------------------------
-- Deliveries
------------------------------------------------------------

namespace Network

namespace RequestEvent

/- What nghttp2 sends in the course of an event. -/
def sends : RequestEvent → List Send
  | job outcome =>
      outcome.connection.sends ++ outcome.submission.sends
  | handler event => event.sends
  | _ => []

/-
  While it sends nghttp2 reports nothing as received for the
  stream, and does not close it.
-/
def Spares
    (id : StreamId)
    (event : RequestEvent) : Prop :=
  ∀ sent ∈ sendEvents event.sends, sent.receivedBy id = false

/- What may happen to the streams in the course of an event. -/
def streamEvents : RequestEvent → List StreamEvent
  | job outcome =>
      sendEvents outcome.connection.sends ++
        (sendEvents outcome.submission.sends ++
          [.registered outcome.submission.assignedId.toNat])
  | handler event => event.streamEvents
  | _ => []

end RequestEvent

namespace Impl

/- What the session has heard, if there is one. -/
def hearing (d : Impl) : Hearing :=
  match d.session with
  | some s => s.hearing
  | none => { callbackState := {}, calls := [] }

/- What a read of the request reports when it completes. -/
def received (d : Impl) : RequestEvent → List StreamEvent
  | .handler event =>
      match d.session with
      | some s =>
          if s.serviceStopped then []
          else s.received (.session event)
      | none => []
  | _ => []

/- What the reads of a run report. -/
abbrev receivedIn :
    Impl → List RequestEvent → List StreamEvent :=
  Transition.relayedIn step received

/-
  Of what is received for stream `id` the session has heard
  just that of `relayed`.
-/
def Relays
    (id : StreamId)
    (listed relayed : List StreamEvent)
    (d d' : Impl) : Prop :=
  Transition.Relays Hearing.hear (·.receivedBy id) listed
    relayed d.hearing d'.hearing

variable {d d' : Impl}
variable {id : StreamId}
variable {listed relayed : List StreamEvent}

theorem hearing_of_session
    {s : HttpTlsSession}
    (hSession : d.session = some s) :
    d.hearing = s.hearing := by
  unfold hearing
  rw [hSession]

theorem relays_of_hearing
    (hSame : d'.hearing = d.hearing) :
    Relays id listed [] d d' := by
  unfold Relays
  rw [hSame]
  exact .refl _ _

/- What the session does on behalf of the request. -/
theorem onSession_relays
    {s : HttpTlsSession}
    {operation : HttpTlsSession → Option HttpTlsSession}
    (hOn : d.onSession s operation = some d')
    (hSession : d.session = some s)
    (hOperation :
      ∀ s', operation (d.enter s) = some s' →
        HttpTlsSession.Relays id listed relayed (d.enter s)
          s') :
    Relays id listed relayed d d' := by
  rcases Option.map_eq_some_iff.mp hOn with
    ⟨s', hRun, rfl⟩
  unfold Relays
  rw [hearing_of_session hSession,
    hearing_of_session (show
      (d.absorb s.log.length s').session = some s' from rfl)]
  exact hOperation s' hRun

end Impl

end Network

------------------------------------------------------------
-- Steps
------------------------------------------------------------

namespace Network

namespace Impl

variable {d d' : Impl}
variable {id : StreamId}

/- A submission hears of its sends, and is registered. -/
theorem submitRequest_relays
    {s : HttpTlsSession}
    {body : Bool}
    {submission : Submission}
    (hSubmit :
      d.submitRequest s body submission = some d')
    (hSession : d.session = some s)
    (hQuiet :
      ∀ sent ∈ sendEvents submission.sends,
        sent.receivedBy id = false) :
    Relays id
      (sendEvents submission.sends ++
        [.registered submission.assignedId.toNat])
      [] d d' := by
  unfold submitRequest at hSubmit
  split at hSubmit
  · refine onSession_relays hSubmit hSession ?_
    intro s' hStop
    exact .of_same
      (Option.some.inj hStop ▸ HttpTlsSession.stop_hearing _)
  · refine onSession_relays hSubmit hSession ?_
    intro s' hRun
    rcases Option.map_eq_some_iff.mp hRun with
      ⟨⟨submitted, ec, id⟩, hSubmitted, hEnd⟩
    refine .of_hears ?_ ?_
    · have hHears := HttpTlsSession.submit_hears hSubmitted
      simp only at hEnd
      split at hEnd
      · rw [← hEnd]
        exact hHears.after (HttpTlsSession.stop_hearing _)
      · rw [← hEnd]
        exact hHears
    · intro event hMem
      rcases List.mem_append.mp hMem with hSent | hRegistered
      · exact hQuiet event hSent
      · rw [List.mem_singleton.mp hRegistered]
        rfl

theorem runJob_relays
    {outcome : JobOutcome}
    {job : Job}
    (hJob : d.runJob outcome job = some d')
    (hQuiet : (RequestEvent.job outcome).Spares id) :
    Relays id (RequestEvent.job outcome).streamEvents [] d
      d' := by
  have hConnect :
      ∀ sent ∈ sendEvents outcome.connection.sends,
        sent.receivedBy id = false := by
    intro sent hSent
    refine hQuiet sent ?_
    unfold sendEvents RequestEvent.sends
    rw [List.flatMap_append]
    exact List.mem_append_left _ hSent
  have hFetch :
      ∀ sent ∈ sendEvents outcome.submission.sends,
        sent.receivedBy id = false := by
    intro sent hSent
    refine hQuiet sent ?_
    unfold sendEvents RequestEvent.sends
    rw [List.flatMap_append]
    exact List.mem_append_right _ hSent
  cases job with
  | connect =>
      simp only [runJob, connect] at hJob
      split at hJob
      · cases hJob
      · rename_i s hSession
        split at hJob
        · refine onSession_relays hJob hSession ?_
          intro s' hResolve
          rcases Option.map_eq_some_iff.mp hResolve with
            ⟨⟨connected, ok⟩, hConnected, rfl⟩
          have hHears :=
            HttpTlsSession.startResolve_hears hConnected
          exact .mono (List.sublist_append_left _ _)
            (HttpTlsSession.Relays.of_hears hHears hConnect)
        · rw [← Option.some.inj hJob]
          exact relays_of_hearing rfl
  | fetch =>
      simp only [runJob, fetch] at hJob
      split at hJob
      · cases hJob
      · rename_i s hSession
        split at hJob
        · rw [← Option.some.inj hJob]
          exact relays_of_hearing rfl
        · have hSubmitted :=
            submitRequest_relays hJob hSession hFetch
          exact hSubmitted.mono (List.sublist_append_right _ _)
  | fetchWithBody =>
      simp only [runJob, fetchWithBody] at hJob
      split at hJob
      · cases hJob
      · rename_i s hSession
        have hSubmitted :=
          submitRequest_relays hJob hSession hFetch
        exact hSubmitted.mono (List.sublist_append_right _ _)

/- What the io_service runs hears what its reads report. -/
theorem served_relays
    {event : RequestEvent}
    (hServed : event.isServed = true)
    (hQuiet : event.Spares id)
    (hStep : d.step event = some d') :
    Relays id event.streamEvents (d.received event) d d' := by
  cases event with
  | job outcome =>
      rcases unlessStopped_cases hStep with rfl | ⟨_, hJob⟩
      · exact relays_of_hearing rfl
      · unfold nextJob at hJob
        split at hJob
        · rw [← Option.some.inj hJob]
          exact relays_of_hearing rfl
        · have hRelays := runJob_relays hJob hQuiet
          exact hRelays
  | handler event =>
      rcases hSession : d.session with _ | s
      · have hSame : d' = d := by
          rcases unlessStopped_cases hStep with
            hIdle | ⟨_, hRun⟩
          · exact hIdle
          · unfold runHandler at hRun
            rw [hSession, Option.some.injEq] at hRun
            exact hRun.symm
        unfold received
        rw [hSession, hSame]
        exact relays_of_hearing rfl
      · have hStopped : d.serviceStopped = s.serviceStopped := by
          unfold serviceStopped
          rw [hSession]
        have hHandled :
            d.unlessStopped (d.runHandler event) = some d' :=
          hStep
        unfold unlessStopped runHandler at hHandled
        unfold received
        rw [hStopped, hSession] at hHandled
        rw [hSession]
        simp only at hHandled ⊢
        split at hHandled
        · rename_i hEnded
          rw [if_pos hEnded, ← Option.some.inj hHandled]
          exact relays_of_hearing rfl
        · rename_i hGoesOn
          rw [if_neg hGoesOn]
          refine onSession_relays hHandled hSession ?_
          intro s' hSessionStep
          have hReads :
              (d.enter s).received (.session event) =
                s.received (.session event) := by
            cases event <;> rfl
          rw [← hReads]
          exact HttpTlsSession.step_relays hQuiet hSessionStep
  | timer code =>
      rcases unlessStopped_cases hStep with rfl | ⟨_, hTimer⟩
      · exact relays_of_hearing rfl
      · rcases timerDone_cases hTimer with
          rfl | ⟨timer, rfl | ⟨s, hSession, _, _, rfl⟩⟩
        · exact relays_of_hearing rfl
        · exact relays_of_hearing rfl
        · refine relays_of_hearing ?_
          rw [hearing_of_session hSession]
          exact HttpTlsSession.stop_hearing _
  | timerCancelled =>
      rcases unlessStopped_cases hStep with rfl | ⟨_, hTimer⟩
      · exact relays_of_hearing rfl
      · rcases timerCancelled_cases hTimer with
          rfl | ⟨timer, rfl⟩
        · exact relays_of_hearing rfl
        · exact relays_of_hearing rfl
  | _ => cases hServed

end Impl

end Network

------------------------------------------------------------
-- Runs
------------------------------------------------------------

namespace Network

namespace Impl

variable {d d' : Impl}

/- The answers of a request are those of its session. -/
theorem answersOf_log (d : Impl) :
    answersOf d.log = d.hearing.answers := by
  unfold log hearing
  cases d.session with
  | none => rfl
  | some s => exact s.answersOf_log

theorem served_run_mirrors
    {events : List RequestEvent}
    (hServed : ∀ event ∈ events, event.isServed = true)
    (hRun : Transition.exec step d events = some d') :
    Mirrors d d' := by
  induction events generalizing d with
  | nil => exact Option.some.inj hRun ▸ .refl d
  | cons event events ih =>
      rcases Transition.exec_cons_eq_some_iff.mp hRun with
        ⟨next, hStep, hRest⟩
      have hFirst :=
        served_mirrors (hServed event List.mem_cons_self) hStep
      exact hFirst.trans
        (ih (fun later hLater =>
          hServed later (List.mem_cons_of_mem _ hLater)) hRest)

/-
  Whatever else the io_service runs meanwhile, a response that
  the reads of a request hand over, up to the close of its
  stream, is answered once and is the response of the request
  then: the block that was marked as a response, with the
  whole body, if no MIME type overrides its own and no other
  stream is closed.
-/
theorem response_of_exchange
    {events : List RequestEvent}
    {closure : ReadyCallback}
    {id : StreamId}
    (hAwaits : d.hearing.callbackState.Awaits closure id)
    (message : ResponseMessage)
    (hServed : ∀ event ∈ events, event.isServed = true)
    (hSends : ∀ event ∈ events, event.Spares id)
    (hAlone :
      ∀ closed ∈ closesOf (events.flatMap (·.streamEvents)),
        closed = id)
    (hRun : Transition.exec step d events = some d')
    (hReceived :
      (d.receivedIn events).filter (·.receivedBy id) =
        (message.callbacks id).map .callback ++
          [.close id]) :
    ∃ rq rp,
      answersOf d'.log =
          answersOf d.log ++ [⟨closure, id, rq, rp⟩] ∧
        d'.response = some rp ∧
          ResponseMessage.IsResponse message.first
            message.chunks rp := by
  have hRelays :
      Relays id (events.flatMap (·.streamEvents))
        (d.receivedIn events) d d' := by
    refine Transition.relays_exec ?_ hRun
    intro state event hMem next hStep
    exact served_relays (hServed event hMem)
      (hSends event hMem) hStep
  rcases Hearing.answers_of_relays hAwaits message hRelays
      hReceived with ⟨rq, rp, hOwn, hResponse⟩
  rcases Hearing.answers_of_closes hRelays.follows hAlone with
    ⟨answers, hAnswers, hAll⟩
  -- the answers of the run are those of the stream
  have hNew : answers = [⟨closure, id, rq, rp⟩] := by
    rw [hAnswers, List.filter_append] at hOwn
    rw [← List.append_cancel_left hOwn]
    exact (List.filter_eq_self.mpr fun answer hMem =>
      decide_eq_true (hAll answer hMem)).symm
  have hLog :
      answersOf d'.log =
        answersOf d.log ++ [⟨closure, id, rq, rp⟩] := by
    rw [answersOf_log, answersOf_log, hAnswers, hNew]
  refine ⟨rq, rp, hLog, ?_, hResponse⟩
  rcases served_run_mirrors hServed hRun with
    ⟨entries, hEntries, _, hHeld⟩
  rw [hEntries, answersOf_append] at hLog
  rw [hHeld, List.append_cancel_left hLog]
  rfl

/- A request that waits for the response of stream one. -/
def awaitingRequest : Impl where
  session := some HttpTlsSession.awaitingSession
  service := true
  isAsync := true

def plainRead : RequestEvent :=
  .handler (.readDone {} 1 (HttpTlsSession.plainRecv 1))

theorem response_of_exchange_plain :
    ∃ d',
      Transition.exec step awaitingRequest [plainRead] =
        some d' ∧
      ∃ rq rp,
        answersOf d'.log =
            answersOf awaitingRequest.log ++
              [⟨⟨some 1⟩, 1, rq, rp⟩] ∧
          d'.response = some rp ∧
            ResponseMessage.IsResponse
              CallbackState.plainMessage.first
              CallbackState.plainMessage.chunks rp := by
  rcases Option.isSome_iff_exists.mp
      (show
        (Transition.exec step awaitingRequest
          [plainRead]).isSome = true from rfl) with ⟨d', hRun⟩
  refine ⟨d', hRun, ?_⟩
  have hAwaits :
      awaitingRequest.hearing.callbackState.Awaits
        ⟨some 1⟩ 1 := HttpTlsSession.awaitingSession_awaits
  refine response_of_exchange hAwaits
    CallbackState.plainMessage ?_ ?_ ?_ hRun ?_
  · intro event hMem
    rw [List.mem_singleton.mp hMem]
    rfl
  · intro event hMem
    rw [List.mem_singleton.mp hMem]
    exact nofun
  · decide
  · decide

end Impl

end Network
