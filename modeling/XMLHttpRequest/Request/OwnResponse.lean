import XMLHttpRequest.Library.Monitor
import XMLHttpRequest.Request.Answers

/-
  Whose response a request returns.

  One ready callback hears the closes of all streams of the
  session: that of the request's own stream, and those of the
  streams that the server pushes.

  Key definitions include:
    * `Network.Impl.Registered`
    * `Network.Impl.ResponseOf`
    * `Network.Impl.deliverClosed`
    * `Network.Impl.LeavesOwn`
    * `Network.Impl.SparesOwn`

  Key theorems include:
    * `Network.Impl.deliver_response_of`
    * `Network.Impl.leavesOwn_iff`
    * `Network.Impl.leavesOwn_along_iff`
-/

------------------------------------------------------------
-- Closed Streams
------------------------------------------------------------

namespace Network

namespace Impl

/- The closure of the ready callback has been installed. -/
def Registered (d : Impl) : Prop :=
  ∃ s, d.session = some s ∧ s.onReadyCb.isSome = true

def findStream (d : Impl) (id : StreamId) : Option Stream :=
  d.session.bind (·.findStream id)

/- The session has been stopped. -/
def halted (d : Impl) : Bool :=
  (d.session.map (·.stopped)).getD false

/- The response is the one reported of stream `id` last. -/
def ResponseOf (d : Impl) (id : StreamId) : Prop :=
  ∃ s answer, d.session = some s ∧
    (answersOf s.log).getLast? = some answer ∧
    answer.id = id ∧
    d.response = some answer.rp

/- The stream of the map that a callback closes. -/
def closes (d : Impl) : Callback → Option StreamId
  | .streamClose id =>
      if (d.findStream id).isSome then some id else none
  | _ => none

/- The streams of the map that have closed, in order. -/
def closedAfter
    (closed : List StreamId)
    (d : Impl)
    (c : Callback)
    (_ : Impl) : List StreamId :=
  closed ++ (d.closes c).toList

def deliverClosed :
    Impl × List StreamId →
      Callback → Option (Impl × List StreamId) :=
  Transition.observed (Transition.total deliver) closedAfter

/-
  After a callback the response is that of stream `own`, if
  this has closed, and the callback stops the session of a
  synchronous request only if it has.
-/
def LeavesOwn
    (own : StreamId)
    (watched : Impl × List StreamId)
    (c : Callback) : Prop :=
  ∀ next, deliverClosed watched c = some next →
    (own ∈ next.2 → next.1.ResponseOf own) ∧
    (watched.1.isAsync = false →
      watched.1.halted = false →
      next.1.halted = true →
      own ∈ next.2)

/-
  Another stream of the map closes only before stream `own`
  does, and only while the request is asynchronous or its
  session has been stopped already.
-/
def SparesOwn
    (own : StreamId)
    (watched : Impl × List StreamId)
    (c : Callback) : Prop :=
  ∀ id, watched.1.closes c = some id →
    id ≠ own →
    own ∉ watched.2 ∧
      (watched.1.isAsync = true ∨ watched.1.halted = true)

end Impl

end Network

------------------------------------------------------------
-- Callbacks
------------------------------------------------------------

namespace Network

namespace Impl

variable {d : Impl}

theorem findStream_of_session
    {s : HttpTlsSession}
    (hSession : d.session = some s)
    (id : StreamId) :
    d.findStream id = s.findStream id := by
  rw [findStream, hSession, Option.bind_some]

theorem halted_of_session
    {s : HttpTlsSession}
    (hSession : d.session = some s) :
    d.halted = s.stopped := by
  rw [halted, hSession, Option.map_some, Option.getD_some]

/- No callback replaces the closure. -/
theorem deliver_registered
    (hRegistered : d.Registered)
    (c : Callback) :
    (d.deliver c).Registered := by
  rcases hRegistered with ⟨s, hSession, hReady⟩
  rcases d.deliver_answers hSession c with
    ⟨s', hAfter, hState, _⟩
  have hSettings :=
    s.toCallbackState.step_settings (.callback c)
  have hKept :
      s'.toCallbackState.onReadyCb = s.onReadyCb := by
    rw [hState]
    exact hSettings.2.1
  exact ⟨s', hAfter, hKept ▸ hReady⟩

/- The close of a stream in the map stores its response. -/
theorem deliver_response_of
    (hRegistered : d.Registered)
    {id : StreamId}
    (hFound : (d.findStream id).isSome = true) :
    (d.deliver (.streamClose id)).ResponseOf id ∧
      (d.deliver (.streamClose id)).halted =
        (d.halted || ! d.isAsync) := by
  rcases hRegistered with ⟨s, hSession, hReady⟩
  rw [findStream_of_session hSession] at hFound
  rcases Option.isSome_iff_exists.mp hFound with
    ⟨strm, hStream⟩
  rcases Option.isSome_iff_exists.mp hReady with
    ⟨closure, hClosure⟩
  have hAnswer :
      s.toCallbackState.answer? (.streamClose id) =
        some ⟨closure, id, strm.rq, strm.rp⟩ := by
    simp only [CallbackState.answer?, hStream, hClosure]
  rcases d.deliver_answers hSession (.streamClose id) with
    ⟨s', hAfter, _, hAnswers, hStopped, _, hResponse⟩
  rw [hAnswer] at hAnswers hStopped hResponse
  constructor
  · refine ⟨s', _, hAfter, ?_, rfl, hResponse⟩
    rw [hAnswers, Option.toList_some,
      List.getLast?_concat]
  · rw [halted_of_session hAfter, halted_of_session hSession,
      hStopped, Option.isSome_some, Bool.and_true]

/- A response belongs to one stream. -/
theorem ResponseOf.unique
    {first second : StreamId}
    (hFirst : d.ResponseOf first)
    (hSecond : d.ResponseOf second) :
    first = second := by
  rcases hFirst with ⟨s, answer, hSession, hLast, rfl, _⟩
  rcases hSecond with
    ⟨s', answer', hSession', hLast', rfl, _⟩
  cases hSession.symm.trans hSession'
  cases hLast.symm.trans hLast'
  rfl

theorem closes_eq_some_iff
    {c : Callback}
    {id : StreamId} :
    d.closes c = some id ↔
      c = .streamClose id ∧
        (d.findStream id).isSome = true := by
  cases c with
  | streamClose closed =>
      simp only [closes, Option.ite_none_right_eq_some,
        Option.some.injEq, Callback.streamClose.injEq]
      constructor
      · rintro ⟨hFound, rfl⟩
        exact ⟨rfl, hFound⟩
      · rintro ⟨rfl, hFound⟩
        exact ⟨hFound, rfl⟩
  | _ => exact iff_of_false nofun nofun

/- Any other callback leaves the response as it is. -/
theorem deliver_of_closes_none
    (hRegistered : d.Registered)
    {c : Callback}
    (hNone : d.closes c = none)
    {id : StreamId} :
    (d.ResponseOf id → (d.deliver c).ResponseOf id) ∧
      (d.deliver c).halted = d.halted := by
  rcases hRegistered with ⟨s, hSession, _⟩
  have hAnswer : s.toCallbackState.answer? c = none := by
    cases c with
    | streamClose id =>
        simp only [closes, findStream_of_session hSession,
          ite_eq_right_iff, reduceCtorEq, imp_false,
          Option.not_isSome_iff_eq_none] at hNone
        simp only [CallbackState.answer?, hNone]
    | _ => rfl
  rcases d.deliver_answers hSession c with
    ⟨s', hAfter, _, hAnswers, hStopped, _, hResponse⟩
  rw [hAnswer] at hAnswers hStopped hResponse
  constructor
  · rintro ⟨s₀, answer, hSession₀, hLast, hId, hStored⟩
    cases hSession.symm.trans hSession₀
    refine ⟨s', answer, hAfter, ?_, hId, ?_⟩
    · rw [hAnswers, Option.toList_none, List.append_nil]
      exact hLast
    · exact hResponse.trans hStored
  · rw [halted_of_session hAfter, halted_of_session hSession,
      hStopped, Option.isSome_none, Bool.and_false,
      Bool.or_false]

end Impl

end Network

------------------------------------------------------------
-- Runs
------------------------------------------------------------

namespace Network

namespace Impl

variable {own : StreamId}

/- The closure is installed, and `own` has kept its response. -/
def Owned
    (own : StreamId)
    (watched : Impl × List StreamId) : Prop :=
  watched.1.Registered ∧
    (own ∈ watched.2 → watched.1.ResponseOf own)

theorem deliverClosed_eq
    (watched : Impl × List StreamId)
    (c : Callback) :
    deliverClosed watched c =
      some (watched.1.deliver c,
        watched.2 ++ (watched.1.closes c).toList) := rfl

theorem leavesOwn_eq
    (watched : Impl × List StreamId)
    (c : Callback) :
    LeavesOwn own watched c ↔
      (own ∈ watched.2 ++ (watched.1.closes c).toList →
        (watched.1.deliver c).ResponseOf own) ∧
      (watched.1.isAsync = false →
        watched.1.halted = false →
        (watched.1.deliver c).halted = true →
        own ∈ watched.2 ++
          (watched.1.closes c).toList) := by
  simp only [LeavesOwn, deliverClosed_eq, Option.some.injEq,
    forall_eq']

/- A callback that closes nothing is harmless. -/
theorem leavesOwn_of_closes_none
    {watched : Impl × List StreamId}
    (hOwned : Owned own watched)
    {c : Callback}
    (hNone : watched.1.closes c = none) :
    LeavesOwn own watched c := by
  rcases deliver_of_closes_none hOwned.1 hNone with
    ⟨hStays, hHalted⟩
  rw [leavesOwn_eq, hNone, Option.toList_none,
    List.append_nil, hHalted]
  refine ⟨fun hClosed => hStays (hOwned.2 hClosed), ?_⟩
  intro _ hGoing hStopped
  rw [hGoing] at hStopped
  cases hStopped

/- So is the close of `own` itself. -/
theorem leavesOwn_of_closes_own
    {watched : Impl × List StreamId}
    (hOwned : Owned own watched)
    {c : Callback}
    (hOwn : watched.1.closes c = some own) :
    LeavesOwn own watched c := by
  rcases closes_eq_some_iff.mp hOwn with ⟨rfl, hFound⟩
  rw [leavesOwn_eq, hOwn]
  constructor
  · intro _
    exact (deliver_response_of hOwned.1 hFound).1
  · intro _ _ _
    exact List.mem_append_right watched.2
      (List.mem_singleton_self own)

/- The close of another stream replaces the response. -/
theorem leavesOwn_of_closes_other
    {watched : Impl × List StreamId}
    (hRegistered : watched.1.Registered)
    {c : Callback}
    {id : StreamId}
    (hOther : watched.1.closes c = some id)
    (hId : id ≠ own) :
    LeavesOwn own watched c ↔
      own ∉ watched.2 ∧
        (watched.1.isAsync = true ∨
          watched.1.halted = true) := by
  rcases closes_eq_some_iff.mp hOther with ⟨rfl, hFound⟩
  rcases deliver_response_of hRegistered hFound with
    ⟨hResponse, hHalted⟩
  have hMem :
      own ∈ watched.2 ++ [id] ↔ own ∈ watched.2 := by
    rw [List.mem_append, List.mem_singleton]
    exact or_iff_left (Ne.symm hId)
  have hNotOwn :
      ¬ (watched.1.deliver
        (.streamClose id)).ResponseOf own :=
    fun hOwn => hId (hResponse.unique hOwn)
  rw [leavesOwn_eq, hOther, Option.toList_some, hMem, hHalted]
  constructor
  · rintro ⟨hOwn, hStops⟩
    have hOpen : own ∉ watched.2 :=
      fun hClosed => hNotOwn (hOwn hClosed)
    refine ⟨hOpen, ?_⟩
    cases hAsync : watched.1.isAsync with
    | true => exact .inl rfl
    | false =>
        cases hGoing : watched.1.halted with
        | true => exact .inr rfl
        | false =>
            have hStopped :
                (watched.1.halted ||
                  ! watched.1.isAsync) = true := by
              rw [hAsync, hGoing]
              rfl
            exact absurd (hStops hAsync hGoing hStopped) hOpen
  · rintro ⟨hOpen, hRuns⟩
    refine ⟨fun hClosed => absurd hClosed hOpen, ?_⟩
    intro hSync hGoing _
    rcases hRuns with hAsync | hHalts
    · rw [hSync] at hAsync
      cases hAsync
    · rw [hGoing] at hHalts
      cases hHalts

/-
  A callback leaves the response of `own` exactly when it does
  not close another stream too late, or too early.
-/
theorem leavesOwn_iff
    {watched : Impl × List StreamId}
    (hOwned : Owned own watched)
    (c : Callback) :
    LeavesOwn own watched c ↔ SparesOwn own watched c := by
  unfold SparesOwn
  cases hCloses : watched.1.closes c with
  | none =>
      exact iff_of_true
        (leavesOwn_of_closes_none hOwned hCloses) nofun
  | some id =>
      by_cases hId : id = own
      · subst hId
        refine iff_of_true
          (leavesOwn_of_closes_own hOwned hCloses) ?_
        intro other hSame hNe
        exact absurd (Option.some.inj hSame).symm hNe
      · rw [leavesOwn_of_closes_other hOwned.1 hCloses hId]
        constructor
        · intro hSpares other hSame _
          exact hSpares
        · intro hSpares
          exact hSpares id rfl hId

theorem leavesOwn_keeps
    {watched next : Impl × List StreamId}
    {c : Callback}
    (hOwned : Owned own watched)
    (hLeaves : LeavesOwn own watched c)
    (hStep : deliverClosed watched c = some next) :
    Owned own next := by
  refine ⟨?_, (hLeaves next hStep).1⟩
  rw [deliverClosed_eq, Option.some.injEq] at hStep
  rw [← hStep]
  exact deliver_registered hOwned.1 c

/-
  In every run of callbacks of a request with a ready callback
  the response stays that of stream `own`, once this has
  closed, and only its close stops a synchronous session,
  exactly when the other streams close before it, and close
  only under an asynchronous request.
-/
theorem leavesOwn_along_iff
    (own : StreamId)
    (d : Impl)
    (hRegistered : d.Registered)
    (callbacks : List Callback) :
    Transition.Along deliverClosed (LeavesOwn own) (d, [])
        callbacks ↔
      Transition.Along deliverClosed (SparesOwn own) (d, [])
        callbacks :=
  Transition.along_congr (I := Owned own)
    (fun _ c hOwned => leavesOwn_iff hOwned c)
    (fun _ _ _ hOwned hLeaves hStep =>
      leavesOwn_keeps hOwned hLeaves hStep)
    ⟨hRegistered, nofun⟩

/- A request whose stream 1 has been submitted. -/
def ownRun (async : Bool) : List RequestEvent :=
  [openRoot async, .setOnReadyCallback (some 0), .send] ++
    submitJobs

/- The server promises stream 2 on the stream of the request. -/
def pushStream : Callback :=
  .beginHeaders
    { streamId := 1, type := .pushPromise
      promisedStreamId := 2 }

theorem ownRun_registered (async : Bool) :
    ∃ d, Transition.exec step {} (ownRun async) = some d ∧
      d.Registered := by
  have hEnd :
      (Transition.exec step {} (ownRun async)).bind
          (fun d =>
            d.session.map (·.onReadyCb.isSome)) =
        some true := by
    cases async <;> decide +kernel
  rcases Option.bind_eq_some_iff.mp hEnd with
    ⟨d, hRun, hReady⟩
  rcases Option.map_eq_some_iff.mp hReady with
    ⟨s, hSession, hSome⟩
  exact ⟨d, hRun, s, hSession, hSome⟩

/- A push that is left open does no harm. -/
theorem leavesOwn_open_push :
    ∃ d, Transition.exec step {} (ownRun false) = some d ∧
      Transition.Along deliverClosed (LeavesOwn 1) (d, [])
        [pushStream, .streamClose 1] := by
  rcases ownRun_registered false with ⟨d, hRun, hRegistered⟩
  refine ⟨d, hRun,
    (leavesOwn_along_iff 1 d hRegistered _).mpr ?_⟩
  refine ⟨fun id hCloses => ?_, fun next _ => ⟨?_, ?_⟩⟩
  · cases hCloses
  · intro id hCloses hId
    have hSame := (closes_eq_some_iff.mp hCloses).1
    cases hSame
    exact absurd rfl hId
  · exact fun _ _ => trivial

/- A pushed stream that closes late replaces the response. -/
theorem late_push_replaces :
    ∃ d, Transition.exec step {} (ownRun true) = some d ∧
      d.Registered ∧
      ¬ Transition.Along deliverClosed (LeavesOwn 1) (d, [])
        [pushStream, .streamClose 1, .streamClose 2] := by
  rcases ownRun_registered true with ⟨d, hRun, hRegistered⟩
  have hCloses :
      (Transition.exec step {} (ownRun true)).map
          (fun d =>
            ((d.deliver pushStream).closes (.streamClose 1),
              ((d.deliver pushStream).deliver
                (.streamClose 1)).closes (.streamClose 2))) =
        some (some 1, some 2) := by
    decide +kernel
  rw [hRun, Option.map_some, Option.some.injEq,
    Prod.mk.injEq] at hCloses
  refine ⟨d, hRun, hRegistered, ?_⟩
  intro hAlong
  have hBefore :
      Transition.exec deliverClosed (d, [])
          [pushStream, .streamClose 1] =
        some
          ((d.deliver pushStream).deliver (.streamClose 1),
            ((d.deliver pushStream).closes
              (.streamClose 1)).toList) := rfl
  have hLast := Transition.Along.last hAlong hBefore
  have hStays :=
    deliver_registered
      (deliver_registered hRegistered pushStream)
      (.streamClose 1)
  have hOpen :=
    ((leavesOwn_of_closes_other hStays hCloses.2
      (by decide)).mp hLast).1
  rw [hCloses.1] at hOpen
  exact hOpen (List.mem_singleton_self 1)

/- One that closes early stops a synchronous session. -/
theorem early_push_stops :
    ∃ d, Transition.exec step {} (ownRun false) = some d ∧
      d.Registered ∧
      ¬ Transition.Along deliverClosed (LeavesOwn 1) (d, [])
        [pushStream, .streamClose 2] := by
  rcases ownRun_registered false with ⟨d, hRun, hRegistered⟩
  have hCloses :
      (Transition.exec step {} (ownRun false)).map
          (fun d =>
            ((d.deliver pushStream).closes (.streamClose 2),
              (d.deliver pushStream).isAsync,
              (d.deliver pushStream).halted)) =
        some (some 2, false, false) := by
    decide +kernel
  rw [hRun, Option.map_some, Option.some.injEq,
    Prod.mk.injEq, Prod.mk.injEq] at hCloses
  refine ⟨d, hRun, hRegistered, ?_⟩
  intro hAlong
  have hBefore :
      Transition.exec deliverClosed (d, []) [pushStream] =
        some (d.deliver pushStream, []) := rfl
  have hLast := Transition.Along.last hAlong hBefore
  have hStays := deliver_registered hRegistered pushStream
  have hRuns :=
    ((leavesOwn_of_closes_other hStays hCloses.1
      (by decide)).mp hLast).2
  rw [hCloses.2.1, hCloses.2.2] at hRuns
  exact absurd hRuns (by decide)

/-
  The close of a pushed stream takes the response over, and
  stops a synchronous session before its response arrives.
-/
theorem push_takes_response :
    (∃ d, Transition.exec step {} (ownRun true) = some d ∧
      d.Registered ∧
      ¬ Transition.Along deliverClosed (LeavesOwn 1) (d, [])
        [pushStream, .streamClose 1, .streamClose 2]) ∧
    ∃ d, Transition.exec step {} (ownRun false) = some d ∧
      d.Registered ∧
      ¬ Transition.Along deliverClosed (LeavesOwn 1) (d, [])
        [pushStream, .streamClose 2] :=
  ⟨late_push_replaces, early_push_stops⟩

end Impl

end Network
