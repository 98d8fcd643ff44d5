import XMLHttpRequest.Library.Monitor
import XMLHttpRequest.Session.Queued

/-
  Pings after they have been cancelled.

  A monitor watches whether the pings have been cancelled, by
  `cancelPing` or `stop`, and not been started again since.
  The handler of the ping timer does not look at its error
  code, so the handler of a cancelled wait starts them again.

  Key definitions include:
    * `Network.HttpTlsSession.pinged?`
    * `Network.HttpTlsSession.stopsAgain`
    * `Network.HttpTlsSession.cancelledAfter`
    * `Network.HttpTlsSession.StaysCancelled`
    * `Network.HttpTlsSession.HoldsPings`

  Key theorems include:
    * `Network.HttpTlsSession.rests_of_cancelled`
    * `Network.HttpTlsSession.stopsAgain_returns`
    * `Network.HttpTlsSession.staysCancelled_along_iff`
-/

------------------------------------------------------------
-- Cancelled Pings
------------------------------------------------------------

namespace Network

namespace HttpTlsSession

variable (s : HttpTlsSession)

/-
  What the handler of the ping timer, if the event runs it,
  has come to when it starts the next ping.
-/
def pinged? : QueuedEvent → Option HttpTlsSession
  | .session (.pingExpired sends) =>
      match s.ping.waits with
      | 0 => none
      | waits + 1 =>
          ({ s with
              ping :=
                { s.ping with
                  waits := waits } }.submitPing {}).write
            sends
  | .session (.pingCancelled sends) =>
      match s.ping.cancelled with
      | 0 => none
      | cancelled + 1 =>
          ({ s with
              ping :=
                { s.ping with
                  cancelled := cancelled } }.submitPing
            .operationAborted).write sends
  | .ping ec sends =>
      match s.ping.cancelled with
      | 0 => none
      | cancelled + 1 =>
          ({ s with
              ping :=
                { s.ping with
                  cancelled := cancelled } }.submitPing
            ec).write sends
  | _ => none

/-
  The event starts the pings from outside the handler, or
  makes a new connection.
-/
def restarts : QueuedEvent → Bool
  | .session .startPing => true
  | .session (.startResolve connection) =>
      if s.stopped then connection.succeeds
      else
        ! connection.resolve.failed && ! s.session &&
          connection.clientNew
  | _ => false

/- What happens inside nghttp2 calls `stop`. -/
def upcallsStop : HttpTlsSession → List Upcall → Bool
  | _, [] => false
  | _, .stop :: _ => true
  | s, .callback c :: upcalls =>
      s.readyStops &&
          (s.toCallbackState.apply c).2.any (·.isReady) ||
        (s.runCallback c).upcallsStop upcalls

/- The read handler calls `stop` on a stopped session. -/
def readStops
    (ec : ErrorCode)
    (n : Nat)
    (recv : Recv) : Bool :=
  n ≠ 0 &&
    (ec.failed ||
      ! s.insideCb &&
        (s.upcallsStop recv.upcalls || recv.rv ≠ n ||
          s.shouldStop recv))

/- The event calls `stop` on a session that is stopped. -/
def stopsAgain (event : QueuedEvent) : Bool :=
  match event with
  | .session .stop => true
  | .session (.startResolve connection) =>
      ! connection.succeeds
  | .session (.readDone ec n recv) =>
      s.sock.reads ≠ 0 && s.readStops ec n recv
  | .read ec n recv =>
      s.sock.cancelledReads ≠ 0 && s.readStops ec n recv
  | _ =>
      (s.completion? event).any fun ec =>
        ec.failed || s.zeroStreamClosed

/-
  The pings have been cancelled, by `cancelPing` or a `stop`
  that has returned, and not been started since.
-/
def cancelledAfter
    (cancelled : Bool)
    (s : HttpTlsSession)
    (event : QueuedEvent)
    (s' : HttpTlsSession) : Bool :=
  if s.restarts event then false
  else
    cancelled || event = .session .cancelPing ||
      if s.stopped then s.stopsAgain event else s'.stopped

def stepCancelled :
    HttpTlsSession × Bool →
      QueuedEvent → Option (HttpTlsSession × Bool) :=
  Transition.observed stepQueued cancelledAfter

/-
  Once they have been cancelled no ping is started, no wait
  pending and no PING frame submitted.
-/
def StaysCancelled
    (watched : HttpTlsSession × Bool)
    (event : QueuedEvent) : Prop :=
  ∀ next, stepCancelled watched event = some next →
    next.2 = true →
      next.1.Rests ∧
        (watched.2 = true →
          next.1.nghttp2.pings = watched.1.nghttp2.pings)

/-
  The handler of the ping timer does not go on to the next
  ping, if the pings have been cancelled or if its own write
  stops the session; and a `stop` of a stopped session finds
  no ping started.
-/
structure HoldsPings
    (watched : HttpTlsSession × Bool)
    (event : QueuedEvent) : Prop where
  handler :
    ∀ written, watched.1.pinged? event = some written →
      watched.2 = false ∧
        (watched.1.stopped = false →
          written.stopped = false)
  again :
    watched.1.stopped = true →
      watched.1.stopsAgain event = true →
        watched.1.Rests

end HttpTlsSession

end Network

------------------------------------------------------------
-- The Handler
------------------------------------------------------------

namespace Network

namespace HttpTlsSession

variable {s s' : HttpTlsSession}
variable {event : QueuedEvent}

/- The event runs a handler of the ping timer, if any waits. -/
def pingEvent : QueuedEvent → Bool
  | .session (.pingExpired _) => true
  | .session (.pingCancelled _) => true
  | .ping _ _ => true
  | _ => false

/- The handler starts the next ping whatever its error code. -/
theorem stepQueued_of_pingEvent
    (hPing : pingEvent event = true) :
    (s.stepQueued event = some s ∧ s.pinged? event = none) ∨
      s.stepQueued event =
        (s.pinged? event).map (·.startPing) := by
  unfold pingEvent at hPing
  split at hPing
  · simp only [stepQueued, step, pinged?]
    cases s.ping.waits with
    | zero => exact .inl ⟨rfl, rfl⟩
    | succ waits => exact .inr rfl
  · simp only [stepQueued, step, pinged?]
    cases s.ping.cancelled with
    | zero => exact .inl ⟨rfl, rfl⟩
    | succ cancelled => exact .inr rfl
  · simp only [stepQueued, pinged?]
    cases s.ping.cancelled with
    | zero => exact .inl ⟨rfl, rfl⟩
    | succ cancelled => exact .inr rfl
  · cases hPing

theorem pingEvent_of_pinged
    {written : HttpTlsSession}
    (hPinged : s.pinged? event = some written) :
    pingEvent event = true ∧
      s.restarts event = false ∧
      s.stopsAgain event = false := by
  unfold pinged? at hPinged
  split at hPinged
  · exact ⟨rfl, rfl, rfl⟩
  · exact ⟨rfl, rfl, rfl⟩
  · exact ⟨rfl, rfl, rfl⟩
  · cases hPinged

theorem stepQueued_of_pinged
    {written : HttpTlsSession}
    (hPinged : s.pinged? event = some written) :
    s.stepQueued event = some written.startPing := by
  have hPing := (pingEvent_of_pinged hPinged).1
  rcases s.stepQueued_of_pingEvent hPing with
    ⟨_, hNone⟩ | hNext
  · rw [hNone] at hPinged
    cases hPinged
  · rw [hNext, hPinged, Option.map_some]

/- Where no handler runs nothing happens. -/
theorem pingEvent_calm
    (hPing : pingEvent event = true)
    (hPinged : s.pinged? event = none)
    (hStep : s.stepQueued event = some s') :
    Calm s s' := by
  rcases s.stepQueued_of_pingEvent hPing with
    ⟨hSame, _⟩ | hNext
  · rw [hSame, Option.some.injEq] at hStep
    exact hStep ▸ .refl s
  · rw [hNext, hPinged] at hStep
    cases hStep

/- Unless asked for, a new connection starts no ping. -/
theorem startResolve_calm
    {connection : Connection}
    (hHeld :
      s.restarts (.session (.startResolve connection)) =
        false)
    (hStep :
      s.stepQueued (.session (.startResolve connection)) =
        some s') :
    Calm s s' := by
  have hResolve :
      (s.startResolve connection).map (·.1) = some s' :=
    hStep
  simp only [restarts] at hHeld
  cases hStopped : s.stopped with
  | true =>
      rw [hStopped, if_pos rfl] at hHeld
      rw [s.startResolve_of_stopped hStopped, hHeld]
        at hResolve
      split at hResolve
      · exact Option.some.inj hResolve ▸ .refl s
      · rw [if_neg Bool.false_ne_true] at hResolve
        rw [← Option.some.inj hResolve]
        exact calm_of_same rfl rfl rfl rfl
  | false =>
      rw [hStopped, if_neg Bool.false_ne_true] at hHeld
      rw [s.startResolve_of_running hStopped] at hResolve
      split at hResolve
      · exact Option.some.inj hResolve ▸ s.stop_calm
      · rename_i hFound
        have hNoSetup :
            ¬ (s.session = false ∧
              connection.clientNew = true) := by
          rintro ⟨hSession, hNew⟩
          simp [hFound, hSession, hNew] at hHeld
        rw [onSocketConnected_eq, if_neg hNoSetup,
          Option.map_some, Option.some.injEq] at hResolve
        rw [← hResolve]
        unfold invokeOnStart
        split <;>
          exact calm_of_same rfl rfl rfl hStopped.symm

/-
  Where the handler does not run and nothing starts or
  cancels the pings, a step is calm.
-/
theorem stepQueued_calm_of_held
    (hPinged : s.pinged? event = none)
    (hHeld : s.restarts event = false)
    (hCancel : event ≠ .session .cancelPing)
    (hStep : s.stepQueued event = some s') :
    Calm s s' := by
  cases hStirs : event.stirs with
  | false => exact stepQueued_calm hStirs hStep
  | true =>
      unfold QueuedEvent.stirs at hStirs
      split at hStirs
      · exact startResolve_calm hHeld hStep
      · exact pingEvent_calm rfl hPinged hStep
      · exact pingEvent_calm rfl hPinged hStep
      · cases hHeld
      · exact absurd rfl hCancel
      · exact pingEvent_calm rfl hPinged hStep
      · cases hStirs

theorem cancelledAfter_cases
    {cancelled : Bool}
    (hCancelled :
      cancelledAfter cancelled s event s' = true) :
    s.restarts event = false ∧
      (cancelled = true ∨ event = .session .cancelPing ∨
        s.stopped = true ∧ s.stopsAgain event = true ∨
        s.stopped = false ∧ s'.stopped = true) := by
  unfold cancelledAfter at hCancelled
  cases hRestarts : s.restarts event with
  | true => simp [hRestarts] at hCancelled
  | false =>
      refine ⟨rfl, ?_⟩
      cases hStopped : s.stopped <;>
        simpa [hRestarts, hStopped, or_assoc]
          using hCancelled

/-
  A step in which the handler does not run starts no ping
  that it has not been asked for.
-/
theorem rests_of_cancelled
    {cancelled : Bool}
    (hRests : cancelled = true → s.Rests)
    (hAgain :
      s.stopped = true → s.stopsAgain event = true →
        s.Rests)
    (hPinged : s.pinged? event = none)
    (hStep : s.stepQueued event = some s')
    (hCancelled :
      cancelledAfter cancelled s event s' = true) :
    s'.Rests ∧ s'.nghttp2.pings = s.nghttp2.pings := by
  rcases cancelledAfter_cases hCancelled with
    ⟨hHeld, hCases⟩
  by_cases hCancel : event = .session .cancelPing
  · subst hCancel
    rw [← Option.some.inj hStep]
    exact ⟨⟨rfl, rfl⟩, rfl⟩
  · have hCalm :=
      stepQueued_calm_of_held hPinged hHeld hCancel hStep
    refine ⟨?_, hCalm.pings⟩
    rcases hCases with
      hBefore | hNow | ⟨hStopped, hStops⟩ | ⟨hRuns, hEnds⟩
    · exact hCalm.rests (hRests hBefore)
    · exact absurd hNow hCancel
    · exact hCalm.rests (hAgain hStopped hStops)
    · exact hCalm.ended hRuns hEnds

/- A read handler of a stopped session waits for no write. -/
theorem readHandler_isSome
    {ec : ErrorCode}
    {n : Nat}
    {recv : Recv}
    (hStopped : s.stopped = true)
    (hOk : ec.failed = true ∨ s.insideCb = false) :
    (s.readHandler ec n recv).isSome = true := by
  unfold readHandler
  split
  · rfl
  · split
    · rfl
    · rename_i hSuccess
      have hFree := hOk.resolve_left hSuccess
      have hUpcalls :=
        s.hold.upcalls_undisturbed recv.upcalls
      have hStill :
          (s.hold.upcalls recv.upcalls).unlock.stopped =
            true :=
        hUpcalls.stopped hStopped
      simp only [lock, hFree, Bool.false_eq_true, if_false,
        Option.bind_some]
      split
      · rfl
      · rw [write_of_stopped _ hStill, Option.map_some,
          Option.isSome_some]

theorem ok_of_readStops
    {ec : ErrorCode}
    {n : Nat}
    {recv : Recv}
    (hStops : s.readStops ec n recv = true) :
    ec.failed = true ∨ s.insideCb = false := by
  unfold readStops at hStops
  cases hFailed : ec.failed with
  | true => exact .inl rfl
  | false =>
      right
      simp only [hFailed, Bool.false_or,
        Bool.and_eq_true] at hStops
      simpa using hStops.2.1

theorem stopsAgain_isSome
    (hStopped : s.stopped = true)
    (hStops : s.stopsAgain event = true) :
    (s.stepQueued event).isSome = true := by
  unfold stopsAgain at hStops
  split at hStops
  · rfl
  · rename_i connection
    have hFails : connection.succeeds = false := by
      simpa using hStops
    have hResolve := s.startResolve_of_stopped hStopped
      connection
    rw [hFails, if_neg Bool.false_ne_true] at hResolve
    simp only [stepQueued, step, hResolve]
    split <;> rfl
  · rename_i ec n recv
    rw [Bool.and_eq_true] at hStops
    have hOk := ok_of_readStops hStops.2
    simp only [stepQueued, step]
    split
    · rfl
    · exact readHandler_isSome hStopped hOk
  · rename_i ec n recv
    rw [Bool.and_eq_true] at hStops
    have hOk := ok_of_readStops hStops.2
    simp only [stepQueued]
    split
    · rfl
    · exact readHandler_isSome hStopped hOk
  · rcases (Option.any_eq_true _ _).mp hStops with
      ⟨ec, hCompletes, hEnds⟩
    rcases stepQueued_of_completion hCompletes with
      ⟨sock, n, _, hHandler⟩
    rw [hHandler]
    unfold writeHandler
    split
    · rfl
    · rename_i hSuccess
      have hClosed : s.zeroStreamClosed = true := by
        simpa [hSuccess] using hEnds
      rw [if_pos (by exact hClosed)]
      rfl

/-
  An event that stops a stopped session is handled, and
  leaves the pings as they were.
-/
theorem stopsAgain_returns
    (hStopped : s.stopped = true)
    (hStops : s.stopsAgain event = true) :
    ∃ s', s.stepQueued event = some s' ∧
      s.restarts event = false ∧ (s'.Rests → s.Rests) := by
  have hPinged : s.pinged? event = none := by
    cases hPinged : s.pinged? event with
    | none => rfl
    | some written =>
        have hNot := (pingEvent_of_pinged hPinged).2.2
        exact absurd (hStops.symm.trans hNot) (by decide)
  have hHeld : s.restarts event = false := by
    unfold restarts
    split
    · simp [stopsAgain, completion?] at hStops
    · simpa [stopsAgain, hStopped] using hStops
    · rfl
  have hCancel : event ≠ .session .cancelPing := by
    rintro rfl
    simp [stopsAgain, completion?] at hStops
  rcases Option.isSome_iff_exists.mp
      (stopsAgain_isSome hStopped hStops) with ⟨s', hStep⟩
  exact ⟨s', hStep, hHeld,
    (stepQueued_calm_of_held hPinged hHeld hCancel
      hStep).rested hStopped⟩

end HttpTlsSession

end Network

------------------------------------------------------------
-- Runs
------------------------------------------------------------

namespace Network

namespace HttpTlsSession

variable {watched : HttpTlsSession × Bool}
variable {event : QueuedEvent}

/- Pings that stay cancelled are held. -/
theorem StaysCancelled.holdsPings
    (hStays : StaysCancelled watched event) :
    HoldsPings watched event := by
  constructor
  · intro written hPinged
    have hStep := stepQueued_of_pinged hPinged
    have hHeld := (pingEvent_of_pinged hPinged).2.1
    -- the handler starts the pings of `written` again
    have hNot :
        cancelledAfter watched.2 watched.1 event
            written.startPing ≠ true := by
      intro hCancelled
      have hNext := hStays (written.startPing, true)
        (Transition.observed_eq_some_iff.mpr
          ⟨hStep, hCancelled.symm⟩) rfl
      cases hNext.1.1
    constructor
    · cases hBefore : watched.2 with
      | false => rfl
      | true =>
          exact absurd
            (by simp [cancelledAfter, hHeld, hBefore]) hNot
    · intro hRunning
      cases hEnded : written.stopped with
      | false => rfl
      | true =>
          exact absurd
            (by
              simp [cancelledAfter, hHeld, hRunning,
                startPing, hEnded])
            hNot
  · intro hStopped hStops
    rcases stopsAgain_returns hStopped hStops with
      ⟨s', hStep, hHeld, hRested⟩
    apply hRested
    have hCancelled :
        cancelledAfter watched.2 watched.1 event s' =
          true := by
      simp [cancelledAfter, hHeld, hStopped, hStops]
    exact (hStays (s', true)
      (Transition.observed_eq_some_iff.mpr
        ⟨hStep, hCancelled.symm⟩) rfl).1

/- Pings that are held stay cancelled. -/
theorem HoldsPings.staysCancelled
    (hRests : watched.2 = true → watched.1.Rests)
    (hHolds : HoldsPings watched event) :
    StaysCancelled watched event := by
  intro next hStep hOpen
  rcases hHolds with ⟨hHandler, hAgain⟩
  rcases Transition.observed_eq_some_iff.mp hStep with
    ⟨hNext, hMemory⟩
  rw [hOpen] at hMemory
  cases hPinged : watched.1.pinged? event with
  | none =>
      have hEnd := rests_of_cancelled hRests hAgain
        hPinged hNext hMemory.symm
      exact ⟨hEnd.1, fun _ => hEnd.2⟩
  | some written =>
      rcases hHandler written hPinged with ⟨hFirst, hGoesOn⟩
      have hArmed := stepQueued_of_pinged hPinged
      have hOnce := (pingEvent_of_pinged hPinged).2.2
      rw [hNext, Option.some.injEq] at hArmed
      rcases (cancelledAfter_cases hMemory.symm).2 with
        hBefore | hNow | ⟨_, hStops⟩ | ⟨hRuns, hEnds⟩
      · exact absurd (hBefore.symm.trans hFirst) (by decide)
      · rw [hNow] at hPinged
        cases hPinged
      · exact absurd (hStops.symm.trans hOnce) (by decide)
      · rw [hArmed] at hEnds
        have hStill : written.stopped = true := hEnds
        exact absurd (hStill.symm.trans (hGoesOn hRuns))
          (by decide)

/-
  Cancelled pings stay cancelled in a run exactly when no
  handler of the ping timer goes on after they have been
  cancelled, or after its own write has stopped the session,
  and no stopped session with its pings started is stopped
  again.
-/
theorem staysCancelled_along_iff
    (s : HttpTlsSession)
    (events : List QueuedEvent) :
    Transition.Along stepCancelled StaysCancelled
        (s, false) events ↔
      Transition.Along stepCancelled HoldsPings
        (s, false) events := by
  apply Transition.along_congr
    (I := fun watched => watched.2 = true → watched.1.Rests)
  · intro watched event hRests
    exact ⟨StaysCancelled.holdsPings,
      HoldsPings.staysCancelled hRests⟩
  · intro watched event next _ hStays hStep hOpen
    exact (hStays next hStep hOpen).1
  · exact nofun

/- The pings of a connected session are cancelled. -/
def cancelledRun : List QueuedEvent :=
  [.session (.startResolve h2Connection),
    .session .cancelPing,
    .session (.pingCancelled [])]

/- The handler of the cancelled wait starts the next one. -/
theorem cancelled_ping_restarts :
    ¬ Transition.Along stepCancelled StaysCancelled
      (create (ascii "a") (ascii "443") zeroGarbage, false)
      cancelledRun := by
  intro hAlong
  have hState :
      (Transition.exec stepCancelled
          (create (ascii "a") (ascii "443") zeroGarbage,
            false)
          cancelledRun).map
        (fun watched =>
          (watched.1.pingIsStarted, watched.2)) =
        some (true, true) := by
    decide +kernel
  rcases Option.map_eq_some_iff.mp hState with
    ⟨last, hRun, hLast⟩
  simp only [Prod.mk.injEq] at hLast
  rcases Transition.exec_cons_eq_some_iff.mp hRun with
    ⟨connected, hConnect, hRest⟩
  rcases Transition.exec_cons_eq_some_iff.mp hRest with
    ⟨cancelled, hCancel, hHandler⟩
  rcases Transition.exec_cons_eq_some_iff.mp hHandler with
    ⟨armed, hArm, hEnd⟩
  have hSame : armed = last := Option.some.inj hEnd
  subst hSame
  have hRests :=
    (((hAlong.2 connected hConnect).2 cancelled hCancel).1
      armed hArm hLast.2).1.1
  exact absurd (hLast.1.symm.trans hRests) (by decide)

end HttpTlsSession

end Network
