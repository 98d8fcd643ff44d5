import XMLHttpRequest.Session.Inert

/-
  Orders of sessions that every step keeps.

  A preorder that each single change keeps relates the session
  before a step to the session after it.

  Key definitions include:
    * `Network.HttpTlsSession.StepOrder`
    * `Network.HttpTlsSession.Winds`

  Key theorems include:
    * `Network.HttpTlsSession.StepOrder.step`
    * `Network.HttpTlsSession.winds_stepOrder`
-/

------------------------------------------------------------
-- Orders of Steps
------------------------------------------------------------

namespace Network

namespace HttpTlsSession

/- A preorder that all changes of a step keep. -/
structure StepOrder
    (R : HttpTlsSession → HttpTlsSession → Prop) : Prop
    extends WriteOrder R where
  sock : ∀ s sock, R s { s with sock := sock }
  writing : ∀ s writing, R s { s with writing := writing }
  ping :
    ∀ s ping started,
      R s { s with ping := ping, pingIsStarted := started }
  nghttp2 : ∀ s nghttp2, R s { s with nghttp2 := nghttp2 }
  connected :
    ∀ s session,
      R s { s with stopped := false, session := session }
  started : ∀ s, R s s.invokeOnStart
  registered : ∀ s id, R s (s.registerStream id)

variable {R : HttpTlsSession → HttpTlsSession → Prop}

namespace StepOrder

variable (hOrder : StepOrder R)
variable {s s' : HttpTlsSession}
variable {sends : List Send}

include hOrder

theorem write (hWrite : s.write sends = some s') : R s s' := by
  refine hOrder.toWriteOrder.write ?_ hWrite
  intro s
  exact hOrder.trans (hOrder.writing s true) (hOrder.sock _ _)

theorem hold (s : HttpTlsSession) : R s s.hold :=
  hOrder.buffers
    ⟨s.wb, s.wblen, s.overrun, s.dataPending, _, _, rfl⟩

theorem unlock (s : HttpTlsSession) : R s s.unlock :=
  hOrder.buffers (buffers_unlock s)

theorem read (s : HttpTlsSession) : R s s.read := by
  unfold HttpTlsSession.read
  split
  · exact hOrder.refl s
  · exact hOrder.sock s _

theorem readHandler
    {ec : ErrorCode}
    {n : Nat}
    {recv : Recv}
    (hHandler : s.readHandler ec n recv = some s') :
    R s s' := by
  have hHeld : R s (s.hold.upcalls recv.upcalls) :=
    hOrder.trans (hOrder.hold s)
      (hOrder.upcalls s.hold recv.upcalls)
  have hUnlocked := hOrder.trans hHeld (hOrder.unlock _)
  cases readHandled_of_some hHandler with
  | nothing _ => exact hOrder.refl s
  | failed _ _ => exact hOrder.stop s
  | refused _ _ _ =>
      exact hOrder.trans
        (hOrder.trans hHeld (hOrder.stop _))
        (hOrder.unlock _)
  | ended _ _ hWrite _ =>
      exact hOrder.trans
        (hOrder.trans hUnlocked (hOrder.write hWrite))
        (hOrder.stop _)
  | goesOn _ _ hWrite _ =>
      exact hOrder.trans
        (hOrder.trans hUnlocked (hOrder.write hWrite))
        (hOrder.read _)

theorem writeHandler
    {ec : ErrorCode}
    {n : Nat}
    (hHandler : s.writeHandler ec n sends = some s') :
    R s s' := by
  cases writeHandled_of_some hHandler with
  | stopped _ => exact hOrder.stop s
  | cleared _ _ hWrite =>
      have hCleared : R s s.clearBuffer :=
        hOrder.trans (hOrder.writing s false)
          (hOrder.buffers
            ⟨_, _, _, s.dataPending, s.insideCb,
              s.nghttp2.sent, rfl⟩)
      exact hOrder.trans hCleared (hOrder.write hWrite)

theorem startPing (s : HttpTlsSession) : R s s.startPing :=
  hOrder.ping s _ _

theorem pingHandler
    {ec : ErrorCode}
    (hHandler : s.pingHandler ec sends = some s') :
    R s s' := by
  rcases Option.map_eq_some_iff.mp hHandler with
    ⟨written, hWrite, rfl⟩
  have hSubmitted : R s (s.submitPing ec) := by
    unfold submitPing
    split
    · exact hOrder.refl s
    · exact hOrder.nghttp2 s _
  exact hOrder.trans
    (hOrder.trans hSubmitted (hOrder.write hWrite))
    (hOrder.startPing _)

theorem submit
    {arguments : SubmitArguments}
    {submission : Submission}
    {result : ErrorCode × Int}
    (hSubmit :
      s.submit arguments submission = some (s', result)) :
    R s s' := by
  rcases submit_cases hSubmit with
    rfl | ⟨request, written, hLocked, rfl⟩
  · exact hOrder.refl _
  · have hTaken : R s (s.receiveRequest request) :=
      hOrder.nghttp2 s _
    refine hOrder.trans (hOrder.trans hTaken ?_)
      (hOrder.registered _ _)
    rcases writeLocked_cases hLocked with
      ⟨_, rfl⟩ | ⟨_, locked, hWrite, rfl⟩
    · exact hOrder.refl _
    · exact hOrder.trans
        (hOrder.trans (hOrder.hold _) (hOrder.write hWrite))
        (hOrder.unlock _)

theorem attempted
    {connection : Connection}
    (hAttempt : Attempted s connection s') :
    R s s' := by
  cases hAttempt with
  | ended sock _ =>
      exact hOrder.trans (hOrder.sock s sock) (hOrder.stop _)
  | again sock _ _ =>
      refine hOrder.trans (hOrder.sock s sock) ?_
      exact hOrder.trans (hOrder.connected _ s.session)
        (hOrder.started _)
  | @greets sock _ _ written hWrite =>
      have hGreeted : R s { s with sock := sock }.greeting :=
        hOrder.trans (hOrder.sock s sock)
          (hOrder.trans (hOrder.connected _ true)
            (hOrder.nghttp2 _ _))
      have hWritten :=
        hOrder.trans hGreeted (hOrder.write hWrite)
      refine hOrder.trans hWritten ?_
      exact hOrder.trans (hOrder.read written)
        (hOrder.trans (hOrder.startPing _)
          (hOrder.started _))

theorem step
    {event : SessionEvent}
    (hStep : s.step event = some s') :
    R s s' := by
  cases step_handled hStep with
  | idle event hSame => exact hSame ▸ hOrder.refl s
  | startResolve connection ok _ =>
      exact hOrder.attempted (step_attempted hStep)
  | readDone ec n recv reads _ hHandler =>
      exact hOrder.trans (hOrder.sock s _)
        (hOrder.readHandler hHandler)
  | readCancelled recv reads _ hSame =>
      exact hSame ▸ hOrder.sock s _
  | writeDone ec n sends data writes _ hHandler =>
      exact hOrder.trans (hOrder.sock s _)
        (hOrder.writeHandler hHandler)
  | writeCancelled sends writes hSame =>
      exact hSame ▸
        hOrder.trans (hOrder.sock s _) (hOrder.stop _)
  | pingExpired sends ping hHandler =>
      exact hOrder.trans
        (hOrder.ping s ping s.pingIsStarted)
        (hOrder.pingHandler hHandler)
  | pingCancelled sends ping hHandler =>
      exact hOrder.trans
        (hOrder.ping s ping s.pingIsStarted)
        (hOrder.pingHandler hHandler)
  | write sends hWrite => exact hOrder.write hWrite
  | submit arguments submission result hSubmit =>
      exact hOrder.submit hSubmit
  | startPing hSame => exact hSame ▸ hOrder.startPing s
  | cancelPing hSame => exact hSame ▸ hOrder.ping s _ _
  | stop hSame => exact hSame ▸ hOrder.stop s

theorem exec
    {events : List SessionEvent}
    (hRun :
      Transition.exec HttpTlsSession.step s events =
        some s') :
    R s s' := by
  induction events generalizing s with
  | nil => exact Option.some.inj hRun ▸ hOrder.refl s
  | cons event events ih =>
      rcases Transition.exec_cons_eq_some_iff.mp hRun with
        ⟨next, hStep, hRest⟩
      exact hOrder.trans (hOrder.step hStep) (ih hRest)

end StepOrder

end HttpTlsSession

end Network

------------------------------------------------------------
-- Winding Up
------------------------------------------------------------

namespace Network

namespace HttpTlsSession

/-
  The io_service stays stopped, and a session that has been
  stopped has stopped it.
-/
structure Winds (s s' : HttpTlsSession) : Prop where
  service :
    s.serviceStopped = true → s'.serviceStopped = true
  ended :
    s.stopped = false → s'.stopped = true →
      s'.serviceStopped = true

variable {s s' : HttpTlsSession}

theorem Winds.of_same
    (hService : s'.serviceStopped = s.serviceStopped)
    (hRuns : s.stopped = false → s'.stopped = false) :
    Winds s s' where
  service hBefore := hService.trans hBefore
  ended hRunning hEnd :=
    absurd ((hRuns hRunning).symm.trans hEnd) nofun

protected theorem Winds.trans
    {s'' : HttpTlsSession}
    (hFirst : Winds s s')
    (hSecond : Winds s' s'') :
    Winds s s'' where
  service hBefore := hSecond.service (hFirst.service hBefore)
  ended hRunning hEnd := by
    cases hMiddle : s'.stopped with
    | true =>
        exact hSecond.service (hFirst.ended hRunning hMiddle)
    | false => exact hSecond.ended hMiddle hEnd

theorem stop_winds (s : HttpTlsSession) : Winds s s.stop := by
  unfold stop
  split
  · exact .of_same rfl id
  · exact ⟨fun _ => rfl, fun _ _ => rfl⟩

theorem winds_stepOrder : StepOrder Winds where
  refl _ := .of_same rfl id
  trans := .trans
  callback s c := by
    unfold runCallback
    simp only
    split
    · refine .trans ?_ (stop_winds _)
      exact .of_same rfl id
    · exact .of_same rfl id
  stop := stop_winds
  buffers := by
    rintro s _ ⟨_, _, _, _, _, _, rfl⟩
    exact .of_same rfl id
  sock _ _ := .of_same rfl id
  writing _ _ := .of_same rfl id
  ping _ _ _ := .of_same rfl id
  nghttp2 _ _ := .of_same rfl id
  connected _ _ := .of_same rfl fun _ => rfl
  started s := by
    unfold invokeOnStart
    split <;> exact .of_same rfl id
  registered _ _ := .of_same rfl id

end HttpTlsSession

end Network
