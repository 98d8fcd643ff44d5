import XMLHttpRequest.Request.Answers
import XMLHttpRequest.Session.Heard
import XMLHttpRequest.Session.ResponseAssembly

/-
  What a session answers for a stream.

  What the completed reads hand over to nghttp2 reaches the
  streams in full, whatever else the session does, and nothing
  else of what is received does.  A response that has come in
  this way is answered by the close of its stream.

  Key definitions include:
    * `Network.HttpTlsSession.received`
    * `Network.QueuedEvent.Spares`
    * `Network.CallbackState.Awaits`

  Key theorems include:
    * `Network.HttpTlsSession.readHandler_relays`
    * `Network.HttpTlsSession.stepQueued_relays`
    * `Network.CallbackState.answers_of_exchange`
    * `Network.Hearing.answers_of_relays`
    * `Network.HttpTlsSession.exchange_run`
-/

------------------------------------------------------------
-- Deliveries
------------------------------------------------------------

namespace Network

/- What nghttp2 reports of the bytes of a read. -/
def Recv.delivered
    (recv : Recv)
    (ec : ErrorCode)
    (n : Nat) : List StreamEvent :=
  if n = 0 || ec.failed then []
  else upcallEvents recv.upcalls

namespace QueuedEvent

/-
  While it sends nghttp2 reports nothing as received for the
  stream, and does not close it.
-/
def Spares
    (id : StreamId)
    (event : QueuedEvent) : Prop :=
  ∀ sent ∈ sendEvents event.sends, sent.receivedBy id = false

end QueuedEvent

namespace HttpTlsSession

/- What a read of the session reports when it completes. -/
def received
    (s : HttpTlsSession) : QueuedEvent → List StreamEvent
  | .session (.readDone ec n recv) =>
      if s.sock.reads = 0 then [] else recv.delivered ec n
  | .read ec n recv =>
      if s.sock.cancelledReads = 0 then []
      else recv.delivered ec n
  | _ => []

/- What the reads of a run report. -/
abbrev receivedIn :
    HttpTlsSession → List QueuedEvent → List StreamEvent :=
  Transition.relayedIn stepQueued received

/-
  Of what is received for stream `id` the session has heard
  just that of `relayed`.
-/
def Relays
    (id : StreamId)
    (listed relayed : List StreamEvent)
    (s s' : HttpTlsSession) : Prop :=
  Transition.Relays Hearing.hear (·.receivedBy id) listed
    relayed s.hearing s'.hearing

variable {s s' s'' : HttpTlsSession}
variable {id : StreamId}
variable {listed relayed : List StreamEvent}

theorem Relays.of_same
    (hSame : s'.hearing = s.hearing) :
    Relays id listed [] s s' := by
  unfold Relays
  rw [hSame]
  exact .refl _ _

theorem Relays.of_hears
    (hHears : Hears listed s s')
    (hQuiet : ∀ sent ∈ listed, sent.receivedBy id = false) :
    Relays id listed [] s s' :=
  .of_follows hHears hQuiet

theorem Relays.after
    (hRelays : Relays id listed relayed s s')
    (hSame : s''.hearing = s'.hearing) :
    Relays id listed relayed s s'' := by
  unfold Relays
  rw [hSame]
  exact hRelays

theorem Relays.since
    (hRelays : Relays id listed relayed s' s'')
    (hSame : s'.hearing = s.hearing) :
    Relays id listed relayed s s'' := by
  unfold Relays
  rw [← hSame]
  exact hRelays

/- A read is heard to its last callback, or not at all. -/
theorem readHandler_relays
    {ec : ErrorCode}
    {n : Nat}
    {recv : Recv}
    (hHandler : s.readHandler ec n recv = some s')
    (hQuiet :
      ∀ sent ∈ sendEvents recv.sends,
        sent.receivedBy id = false) :
    Relays id
      (upcallEvents recv.upcalls ++ sendEvents recv.sends)
      (recv.delivered ec n) s s' := by
  by_cases hNothing : (n = 0 || ec.failed) = true
  · have hSame : s'.hearing = s.hearing := by
      unfold readHandler at hHandler
      split at hHandler
      · exact Option.some.inj hHandler ▸ rfl
      · rename_i hSome
        have hFailed : ec.failed = true := by
          simpa [hSome] using hNothing
        rw [if_pos hFailed, Option.some.injEq] at hHandler
        rw [← hHandler, stop_hearing]
    rw [Recv.delivered, if_pos hNothing]
    exact .of_same hSame
  · rw [Recv.delivered, if_neg hNothing]
    have hUpcalls :
        Relays id (upcallEvents recv.upcalls)
          (upcallEvents recv.upcalls) s
          (s.hold.upcalls recv.upcalls) :=
      .all (s.hold.upcalls_hearing recv.upcalls).symm
    have hSent
        {written : HttpTlsSession}
        (hHears :
          Hears (sendEvents recv.sends)
            (s.hold.upcalls recv.upcalls) written) :
        Relays id
          (upcallEvents recv.upcalls ++ sendEvents recv.sends)
          (upcallEvents recv.upcalls) s written := by
      have hBoth :=
        hUpcalls.append (Relays.of_hears hHears hQuiet)
      rw [List.append_nil] at hBoth
      exact hBoth
    cases readHandled_of_some hHandler with
    | nothing hZero => simp [hZero] at hNothing
    | failed _ hFailed => simp [hFailed] at hNothing
    | refused _ _ _ =>
        exact hSent (.of_same (stop_hearing _))
    | ended _ _ hWrite _ =>
        exact hSent
          (((write_hears hWrite).since rfl).after
            (stop_hearing _))
    | goesOn _ _ hWrite _ =>
        exact hSent
          (((write_hears hWrite).since rfl).after
            (read_hearing _))

end HttpTlsSession

end Network

------------------------------------------------------------
-- Steps and Runs
------------------------------------------------------------

namespace Network

namespace HttpTlsSession

variable {s s' : HttpTlsSession}
variable {id : StreamId}

/- Apart from a read nothing is listed that was received. -/
theorem streamEvents_quiet
    {event : SessionEvent}
    (hQuiet : (QueuedEvent.session event).Spares id)
    (hRead : ∀ ec n recv, event ≠ .readDone ec n recv) :
    ∀ listed ∈ event.streamEvents,
      listed.receivedBy id = false := by
  intro listed hMem
  cases event with
  | readDone ec n recv => exact absurd rfl (hRead ec n recv)
  | submit arguments submission =>
      rcases List.mem_append.mp hMem with hSent | hRegistered
      · exact hQuiet listed hSent
      · rw [List.mem_singleton.mp hRegistered]
        rfl
  | _ => exact hQuiet listed hMem

theorem step_relays
    {event : SessionEvent}
    (hQuiet : (QueuedEvent.session event).Spares id)
    (hStep : s.step event = some s') :
    Relays id event.streamEvents
      (s.received (.session event)) s s' := by
  by_cases hRead : ∃ ec n recv, event = .readDone ec n recv
  · rcases hRead with ⟨ec, n, recv, rfl⟩
    simp only [step] at hStep
    simp only [received]
    split at hStep
    · rename_i hNone
      rw [if_pos hNone]
      exact .of_same (Option.some.inj hStep ▸ rfl)
    · rename_i reads hReads
      rw [if_neg (by omega)]
      exact (readHandler_relays hStep hQuiet).since rfl
  · have hOther :
        ∀ ec n recv, event ≠ .readDone ec n recv := by
      intro ec n recv hSame
      exact hRead ⟨ec, n, recv, hSame⟩
    have hNothing : s.received (.session event) = [] := by
      cases event with
      | readDone ec n recv => exact absurd rfl (hOther ec n recv)
      | _ => rfl
    rw [hNothing]
    exact .of_hears (step_hears hStep)
      (streamEvents_quiet hQuiet hOther)

/- A step hears of what is received what its read reports. -/
theorem stepQueued_relays
    {event : QueuedEvent}
    (hQuiet : event.Spares id)
    (hStep : s.stepQueued event = some s') :
    Relays id event.streamEvents (s.received event) s s' := by
  cases event with
  | session event => exact step_relays hQuiet hStep
  | read ec n recv =>
      simp only [stepQueued] at hStep
      simp only [received]
      split at hStep
      · rename_i hNone
        rw [if_pos hNone]
        exact .of_same (Option.some.inj hStep ▸ rfl)
      · rw [if_neg (by omega)]
        exact (readHandler_relays hStep hQuiet).since rfl
  | write ec n sends =>
      exact .of_hears (stepQueued_hears hStep) hQuiet
  | ping ec sends =>
      exact .of_hears (stepQueued_hears hStep) hQuiet

end HttpTlsSession

end Network

------------------------------------------------------------
-- Answers
------------------------------------------------------------

namespace Network

namespace CallbackState

variable (s : CallbackState)

/-
  Of a stream that nothing has been received for, a message
  and its close leave one answer: the recorded block with the
  body.  Other streams, and what is sent, come in between.
-/
theorem answers_of_exchange
    (hOverride : s.overrideMimeType = [])
    {closure : ReadyCallback}
    (hListens : s.onReadyCb = some closure)
    {id : StreamId}
    {strm : Stream}
    (hFind : s.findStream id = some strm)
    (hUnread : strm.rp = {})
    (message : ResponseMessage)
    {heard : List StreamEvent}
    (hHeard :
      heard.filter (·.receivedBy id) =
        (message.callbacks id).map .callback ++
          [.close id]) :
    ∃ rq rp,
      readyCalls id s heard = [.ready closure id rq rp] ∧
        ResponseMessage.IsResponse message.first
          message.chunks rp := by
  rcases List.filter_eq_append_iff.mp hHeard with
    ⟨before, rest, rfl, hBefore, hRest⟩
  rcases List.filter_eq_cons_iff.mp hRest with
    ⟨between, after, rfl, hBetween, _, hAfter⟩
  have hReceived : (StreamEvent.close id).receivedBy id = true :=
    decide_eq_true rfl
  have hOpen : .close id ∉ before ++ between := by
    intro hMem
    rcases List.mem_append.mp hMem with hFirst | hSecond
    · have hListed :=
        List.mem_filter.mpr ⟨hFirst, hReceived⟩
      rw [hBefore] at hListed
      rcases List.mem_map.mp hListed with ⟨c, hCallback, hSame⟩
      rw [StreamEvent.callback.injEq] at hSame
      exact message.close_notMem id (hSame ▸ hCallback)
    · exact hBetween _ hSecond hReceived
  have hLast : .close id ∉ after := by
    intro hMem
    exact List.filter_eq_nil_iff.mp hAfter _ hMem hReceived
  rcases s.findStream_run_rp (before ++ between) hOpen
      hFind with ⟨strm', hFind', hResponse⟩
  have hNone : between.filter (·.receivedBy id) = [] :=
    List.filter_eq_nil_iff.mpr hBetween
  have hRecorded :
      strm'.rp =
        (({} : Response).onFields
          message.first.fields).addChunks message.chunks := by
    rw [hResponse, StreamEvent.foldl_onResponse_receivedBy,
      List.filter_append, hBefore, hNone, List.append_nil,
      hOverride, hUnread, List.foldl_map]
    exact message.recorded_rp id
  refine ⟨strm'.rq, strm'.rp, ?_, ?_⟩
  · rw [← List.append_assoc,
      s.readyCalls_of_one_close hOpen hLast]
    refine CallbackState.readyCallsOf_close _ ?_ hFind'
    rw [(s.run_settings _).2.1]
    exact hListens
  · rw [hRecorded]
    exact ResponseMessage.isResponse_recorded _ _

end CallbackState

end Network

------------------------------------------------------------
-- Exchanges
------------------------------------------------------------

namespace Network

/- The answer that a call gives. -/
def Call.answer? : Call → Option Answer
  | .ready closure id rq rp => some ⟨closure, id, rq, rp⟩
  | .stateChange _ _ => none

/- The streams that events close, in order. -/
def closesOf (events : List StreamEvent) : List StreamId :=
  events.filterMap fun event =>
    match event with
    | .callback (.streamClose id) => some id
    | _ => none

theorem mem_closesOf
    {id : StreamId}
    {events : List StreamEvent}
    (hClose : .close id ∈ events) :
    id ∈ closesOf events :=
  List.mem_filterMap.mpr ⟨.close id, hClose, rfl⟩

/- The answers that the calls have given. -/
def Hearing.answers (heard : Hearing) : List Answer :=
  heard.calls.filterMap (·.answer?)

theorem HttpTlsSession.answersOf_log (s : HttpTlsSession) :
    answersOf s.log = s.hearing.answers := by
  unfold answersOf hearing Hearing.answers
  rw [List.filterMap_filterMap]
  apply List.filterMap_congr
  intro entry _
  cases entry with
  | call c => cases c <;> rfl
  | started closure => rfl
  | stopped closure => rfl

/- The answers of a stream are those of its ready calls. -/
theorem filterMap_answer_filter
    (id : StreamId)
    (calls : List Call) :
    (calls.filterMap (·.answer?)).filter (·.id = id) =
      (calls.filter (·.isReadyOf id)).filterMap
        (·.answer?) := by
  induction calls with
  | nil => rfl
  | cons call calls ih =>
      cases call with
      | stateChange closure state => exact ih
      | ready closure closed rq rp =>
          have hAnswer :
              (Call.ready closure closed rq rp).answer? =
                some ⟨closure, closed, rq, rp⟩ := rfl
          rw [List.filterMap_cons_some hAnswer]
          by_cases hId : closed = id
          · have hReady :
                (Call.ready closure closed rq rp).isReadyOf
                  id = true := decide_eq_true hId
            rw [List.filter_cons_of_pos (by simpa using hId),
              List.filter_cons_of_pos hReady,
              List.filterMap_cons_some hAnswer, ih]
          · have hOther :
                ¬ (Call.ready closure closed rq rp).isReadyOf
                  id = true := by
              simpa [Call.isReadyOf] using hId
            rw [List.filter_cons_of_neg (by simpa using hId),
              List.filter_cons_of_neg hOther, ih]

/-
  The stream is in the map and nothing has been received for
  it, somebody listens, and no MIME type was set to override
  that of a response.
-/
structure CallbackState.Awaits
    (s : CallbackState)
    (closure : ReadyCallback)
    (id : StreamId) : Prop where
  override : s.overrideMimeType = []
  listens : s.onReadyCb = some closure
  unread :
    ∃ strm, s.findStream id = some strm ∧ strm.rp = {}

namespace Hearing

variable {heard heard' : Hearing}
variable {listed relayed : List StreamEvent}

/- A message and its close, handed over in full. -/
theorem answers_of_relays
    {closure : ReadyCallback}
    {id : StreamId}
    (hAwaits : heard.callbackState.Awaits closure id)
    (message : ResponseMessage)
    (hRelays :
      Transition.Relays hear (·.receivedBy id) listed relayed
        heard heard')
    (hRelayed :
      relayed.filter (·.receivedBy id) =
        (message.callbacks id).map .callback ++
          [.close id]) :
    ∃ rq rp,
      heard'.answers.filter (·.id = id) =
          heard.answers.filter (·.id = id) ++
            [⟨closure, id, rq, rp⟩] ∧
        ResponseMessage.IsResponse message.first
          message.chunks rp := by
  rcases hRelays with ⟨happened, _, hSelected, rfl⟩
  have hMessage := hSelected.trans hRelayed
  rcases hAwaits.unread with ⟨strm, hFind, hUnread⟩
  rcases heard.callbackState.answers_of_exchange
      hAwaits.override hAwaits.listens hFind hUnread message
      hMessage with ⟨rq, rp, hReady, hResponse⟩
  refine ⟨rq, rp, ?_, hResponse⟩
  rw [foldl_hear]
  unfold answers
  rw [List.filterMap_append, List.filter_append]
  congr 1
  rw [filterMap_answer_filter, CallbackState.trace_filter,
    hReady]
  rfl

/- Where one stream is closed at most, it alone is answered. -/
theorem answers_of_closes
    {id : StreamId}
    (hFollows :
      Transition.Follows hear listed heard heard')
    (hAlone :
      ∀ closed ∈ closesOf listed, closed = id) :
    ∃ answers,
      heard'.answers = heard.answers ++ answers ∧
        ∀ answer ∈ answers, answer.id = id := by
  rcases hFollows with ⟨happened, hHappened, rfl⟩
  rw [foldl_hear]
  refine ⟨_, List.filterMap_append, ?_⟩
  intro answer hMem
  rcases List.mem_filterMap.mp hMem with ⟨call, hCall, hSome⟩
  cases call with
  | stateChange closure state => cases hSome
  | ready closure closed rq rp =>
      rw [← Option.some.inj hSome]
      -- a call is that of a close
      by_contra hOther
      have hNone :
          CallbackState.readyCalls closed heard.callbackState
              happened = [] := by
        apply CallbackState.readyCalls_eq_nil
        intro hClose
        exact hOther
          (hAlone closed
            (mem_closesOf (hHappened.subset hClose)))
      rw [← CallbackState.trace_filter,
        List.filter_eq_nil_iff] at hNone
      exact hNone _ hCall (decide_eq_true rfl)

end Hearing

namespace HttpTlsSession

variable {s s' : HttpTlsSession}

/-
  A response that the reads of a run hand over, up to the
  close of its stream, is answered once: by the block that
  was marked as a response, with the whole body, if no MIME
  type overrides its own.  What is received for other streams,
  what is sent, pinged or stopped meanwhile makes no
  difference, nor which other streams nghttp2 closes then.
-/
theorem exchange_run
    {events : List QueuedEvent}
    {closure : ReadyCallback}
    {id : StreamId}
    (hAwaits : s.Awaits closure id)
    (message : ResponseMessage)
    (hSends : ∀ event ∈ events, event.Spares id)
    (hRun :
      Transition.exec stepQueued s events = some s')
    (hReceived :
      (s.receivedIn events).filter (·.receivedBy id) =
        (message.callbacks id).map .callback ++
          [.close id]) :
    ∃ rq rp,
      (answersOf s'.log).filter (·.id = id) =
          (answersOf s.log).filter (·.id = id) ++
            [⟨closure, id, rq, rp⟩] ∧
        ResponseMessage.IsResponse message.first
          message.chunks rp := by
  have hRelays :
      Relays id (runEvents events) (s.receivedIn events) s
        s' := by
    refine Transition.relays_exec ?_ hRun
    intro state event hMem next hStep
    exact stepQueued_relays (hSends event hMem) hStep
  rw [answersOf_log, answersOf_log]
  exact Hearing.answers_of_relays hAwaits message hRelays
    hReceived

/- `200` with a body, and the close of its stream. -/
def plainRecv (id : StreamId) : Recv where
  upcalls :=
    (CallbackState.plainMessage.callbacks id ++
      [Callback.streamClose id]).map .callback
  rv := 1

/- A session that waits for the response of stream one. -/
def awaitingSession : HttpTlsSession :=
  { create (ascii "a") (ascii "443") zeroGarbage with
    toCallbackState :=
      { onReadyCb := some ⟨some 1⟩ : CallbackState }.addStream
        (Stream.create 1)
    session := true
    stopped := false
    sock := { reads := 1 } }

theorem awaitingSession_awaits :
    awaitingSession.Awaits ⟨some 1⟩ 1 where
  override := rfl
  listens := rfl
  unread := ⟨Stream.create 1, rfl, rfl⟩

theorem exchange_run_plain :
    ∃ s',
      Transition.exec stepQueued awaitingSession
          [.session (.readDone {} 1 (plainRecv 1))] =
        some s' ∧
      ∃ rq rp,
        (answersOf s'.log).filter (·.id = 1) =
            (answersOf awaitingSession.log).filter
                (·.id = 1) ++ [⟨⟨some 1⟩, 1, rq, rp⟩] ∧
          ResponseMessage.IsResponse
            CallbackState.plainMessage.first
            CallbackState.plainMessage.chunks rp := by
  rcases Option.isSome_iff_exists.mp
      (show
        (Transition.exec stepQueued awaitingSession
          [.session (.readDone {} 1 (plainRecv 1))]
          ).isSome = true from rfl) with ⟨s', hRun⟩
  refine ⟨s', hRun, ?_⟩
  refine exchange_run awaitingSession_awaits
    CallbackState.plainMessage ?_ hRun ?_
  · intro event hMem
    rw [List.mem_singleton.mp hMem]
    exact nofun
  · decide

end HttpTlsSession

end Network
