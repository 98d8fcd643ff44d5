import XMLHttpRequest.Session.Frames

/-
  The mutex `insideCb`: which steps return, and in which
  state they leave it.

  Key definitions include:
    * `Network.HttpTlsSession.Returns`
    * `Network.HttpTlsSession.SubmitWaits`

  Key theorems include:
    * `Network.HttpTlsSession.step_returns_iff`
    * `Network.HttpTlsSession.returns_along_iff`
-/

------------------------------------------------------------
-- Steps That Return
------------------------------------------------------------

namespace Network

namespace HttpTlsSession

/- An operation returns and leaves the mutex free. -/
def Frees (result : Option HttpTlsSession) : Prop :=
  ∃ s', result = some s' ∧ s'.insideCb = false

/- The step returns and leaves the mutex free. -/
def Returns
    (s : HttpTlsSession)
    (event : SessionEvent) : Prop :=
  Frees (s.step event)

/-
  A request that is accepted by a running session without a
  write under way is written inside the lock of `submit`.
-/
def SubmitWaits
    (s : HttpTlsSession) :
    SessionEvent → Prop
  | .submit arguments submission =>
      s.stopped = false ∧ s.writing = false ∧
        (submittableUrl arguments.url).isSome = true ∧
        0 ≤ submission.assignedId
  | _ => False

theorem frees_some
    {s : HttpTlsSession}
    (hFree : s.insideCb = false) :
    Frees (some s) :=
  ⟨s, rfl, hFree⟩

theorem frees_map_iff
    {result : Option HttpTlsSession}
    {f : HttpTlsSession → HttpTlsSession}
    (hKeeps : ∀ s, (f s).insideCb = s.insideCb) :
    Frees (result.map f) ↔ Frees result := by
  cases result with
  | none => simp [Frees]
  | some s => simp [Frees, hKeeps]

variable {s : HttpTlsSession}

theorem stop_free
    (hFree : s.insideCb = false) :
    s.stop.insideCb = false :=
  s.stop_undisturbed.insideCb.trans hFree

theorem write_frees
    (hFree : s.insideCb = false)
    (sends : List Send) :
    Frees (s.write sends) := by
  have hSome :=
    (s.write_isSome_iff sends).mpr (.inr (.inr hFree))
  rcases Option.isSome_iff_exists.mp hSome with
    ⟨s', hWrite⟩
  exact ⟨s', hWrite,
    (s.write_insideCb hWrite).trans hFree⟩

theorem writeHandler_frees
    (hFree : s.insideCb = false)
    (ec : ErrorCode)
    (n : Nat)
    (sends : List Send) :
    Frees (s.writeHandler ec n sends) := by
  unfold writeHandler
  split
  · exact frees_some (stop_free hFree)
  · split
    · exact frees_some (stop_free hFree)
    · exact write_frees (by exact hFree) sends

theorem read_insideCb (s : HttpTlsSession) :
    s.read.insideCb = s.insideCb := by
  unfold read
  split <;> rfl

theorem readHandler_frees
    (hFree : s.insideCb = false)
    (ec : ErrorCode)
    (n : Nat)
    (recv : Recv) :
    Frees (s.readHandler ec n recv) := by
  unfold readHandler
  split
  · exact frees_some hFree
  · split
    · exact frees_some (stop_free hFree)
    · simp only [lock, hFree, Bool.false_eq_true,
        if_false, Option.bind_some]
      split
      · exact frees_some rfl
      · refine (frees_map_iff ?_).mpr
          (write_frees rfl recv.sends)
        intro s'
        split
        · exact s'.stop_undisturbed.insideCb
        · exact s'.read_insideCb

theorem pingHandler_frees
    (hFree : s.insideCb = false)
    (ec : ErrorCode)
    (sends : List Send) :
    Frees (s.pingHandler ec sends) := by
  have hSubmitted : (s.submitPing ec).insideCb = false := by
    unfold submitPing
    split <;> exact hFree
  exact (frees_map_iff (f := startPing) fun _ => rfl).mpr
    (write_frees hSubmitted sends)

theorem onSocketConnected_frees
    (hFree : s.insideCb = false)
    (connection : Connection) :
    Frees (s.onSocketConnected connection) := by
  rw [onSocketConnected_eq]
  split
  · have hGreeting : s.greeting.insideCb = false := hFree
    refine (frees_map_iff ?_).mpr
      (write_frees hGreeting connection.sends)
    intro s'
    exact s'.read_insideCb
  · exact frees_some hFree

theorem startResolve_frees
    (hFree : s.insideCb = false)
    (connection : Connection) :
    Frees ((s.startResolve connection).map (·.1)) := by
  have hInvoke :
      ∀ s : HttpTlsSession,
        s.invokeOnStart.insideCb = s.insideCb := by
    intro s
    unfold invokeOnStart
    split <;> rfl
  cases hStopped : s.stopped with
  | true =>
      rw [s.startResolve_of_stopped hStopped]
      split
      · exact frees_some hFree
      · split
        · exact (frees_map_iff hInvoke).mpr
            (onSocketConnected_frees (by exact hFree) _)
        · exact frees_some hFree
  | false =>
      rw [s.startResolve_of_running hStopped]
      split
      · exact frees_some (stop_free hFree)
      · exact (frees_map_iff hInvoke).mpr
          (onSocketConnected_frees hFree _)

/- Under the lock `write` returns where it does nothing. -/
theorem writeLocked_frees_iff
    (hFree : s.insideCb = false)
    (sends : List Send) :
    Frees (s.writeLocked sends) ↔
      s.stopped = true ∨ s.writing = true := by
  have hSome := s.hold.write_isSome_iff sends
  have hHeld :
      (s.hold.stopped = true ∨ s.hold.writing = true ∨
          s.hold.insideCb = false) ↔
        s.stopped = true ∨ s.writing = true := by
    simp [hold]
  rw [← hHeld, ← hSome, writeLocked, hFree,
    if_neg Bool.false_ne_true]
  cases s.hold.write sends with
  | none => simp [Frees]
  | some s' => simp [Frees, unlock]

/-
  `submit` takes the lock before `write` does, so it returns
  only where `write` has nothing to do.
-/
theorem submit_frees_iff
    (hFree : s.insideCb = false)
    (arguments : SubmitArguments)
    (submission : Submission) :
    Frees
        ((s.submit arguments submission).map (·.1)) ↔
      ¬ s.SubmitWaits (.submit arguments submission) := by
  cases hStopped : s.stopped with
  | true =>
      simp only [submit, SubmitWaits, hStopped, if_true]
      simpa using frees_some hFree
  | false =>
      cases hUrl : submittableUrl arguments.url with
      | none =>
          simp only [submit, SubmitWaits, hStopped, hUrl,
            Bool.false_eq_true, if_false]
          simpa using frees_some hFree
      | some u =>
          by_cases hRefused : submission.assignedId < 0
          · have hNot : ¬ 0 ≤ submission.assignedId := by
              omega
            simp only [submit, SubmitWaits, hStopped, hUrl,
              Bool.false_eq_true, if_false, hRefused,
              if_true, hNot]
            simpa using frees_some hFree
          · have hTaken : 0 ≤ submission.assignedId := by
              omega
            simp only [submit, SubmitWaits, hStopped, hUrl,
              Bool.false_eq_true, if_false, hRefused,
              Option.map_map, Option.isSome_some, hTaken,
              true_and, and_true]
            rw [frees_map_iff (by exact fun _ => rfl),
              writeLocked_frees_iff (by exact hFree)]
            simp [receiveRequest, hStopped]

/- With a free mutex everything but a `submit` returns. -/
theorem returns_of_ne_submit
    (hFree : s.insideCb = false)
    {event : SessionEvent}
    (hOther :
      ∀ arguments submission,
        event ≠ .submit arguments submission) :
    s.Returns event := by
  cases event with
  | submit arguments submission =>
      exact absurd rfl (hOther arguments submission)
  | startResolve connection =>
      exact startResolve_frees hFree connection
  | readDone ec n recv =>
      simp only [Returns, step]
      split
      · exact frees_some hFree
      · exact readHandler_frees (by exact hFree) ec n recv
  | readCancelled recv =>
      simp only [Returns, step]
      split
      · exact frees_some hFree
      · exact readHandler_frees (by exact hFree) _ _ recv
  | writeDone ec n sends =>
      simp only [Returns, step]
      split
      · exact frees_some hFree
      · exact writeHandler_frees (by exact hFree) ec _ sends
  | writeCancelled sends =>
      simp only [Returns, step]
      split
      · exact frees_some hFree
      · exact writeHandler_frees (by exact hFree) _ _ sends
  | pingExpired sends =>
      simp only [Returns, step]
      split
      · exact frees_some hFree
      · exact pingHandler_frees (by exact hFree) _ sends
  | pingCancelled sends =>
      simp only [Returns, step]
      split
      · exact frees_some hFree
      · exact pingHandler_frees (by exact hFree) _ sends
  | write sends => exact write_frees hFree sends
  | startPing => exact frees_some hFree
  | cancelPing => exact frees_some hFree
  | stop => exact frees_some (stop_free hFree)

/- The steps of a session whose mutex is free. -/
theorem step_returns_iff
    (hFree : s.insideCb = false)
    (event : SessionEvent) :
    s.Returns event ↔ ¬ s.SubmitWaits event := by
  cases event with
  | submit arguments submission =>
      exact submit_frees_iff hFree arguments submission
  | _ =>
      refine iff_of_true (returns_of_ne_submit hFree ?_)
        not_false
      intro arguments submission hSame
      cases hSame

end HttpTlsSession

end Network

------------------------------------------------------------
-- Runs
------------------------------------------------------------

namespace Network

namespace HttpTlsSession

/-
  Every step of a run returns and leaves the mutex free
  exactly when no submit of the run waits.
-/
theorem returns_along_iff
    (s : HttpTlsSession)
    (hFresh : s.Fresh)
    (events : List SessionEvent) :
    Transition.Along step Returns s events ↔
      Transition.Along step
        (fun s event => ¬ s.SubmitWaits event) s events := by
  apply Transition.along_congr
    (I := fun s => s.insideCb = false)
  · intro s event hFree
    exact step_returns_iff hFree event
  · intro s event s' _ hReturns hStep
    rcases hReturns with ⟨returned, hReturned, hFree⟩
    rw [hStep, Option.some.injEq] at hReturned
    exact hReturned ▸ hFree
  · exact hFresh.insideCb

/- A request submitted while the preface is being written. -/
theorem returns_along_connecting :
    Transition.Along step Returns
      (create (ascii "a") (ascii "443") zeroGarbage)
      (connectedRun ++ [submitRoot]) := by
  apply (returns_along_iff _ (create_fresh _ _ _) _).mpr
  refine ⟨by simp [SubmitWaits], fun s hStep => ⟨?_, ?_⟩⟩
  · have hWriting : s.writing = true := by
      have hEval :
          ((create (ascii "a") (ascii "443")
              zeroGarbage).step
            (.startResolve h2Connection)).map (·.writing) =
              some true := by
        decide +kernel
      rw [hStep] at hEval
      exact Option.some.inj hEval
    simp [submitRoot, SubmitWaits, hWriting]
  · exact fun _ _ => trivial

/- A request submitted once the preface has been written. -/
theorem submit_idle_waits :
    ¬ Transition.Along step Returns
      (create (ascii "a") (ascii "443") zeroGarbage)
      (connectedRun ++
        [.writeDone {} 3 [], submitRoot]) := by
  intro hAlong
  have hEnds :=
    hAlong.exec_isSome fun s event hReturns =>
      Option.isSome_iff_exists.mpr
        (hReturns.imp fun _ h => h.1)
  exact absurd hEnds (by decide +kernel)

end HttpTlsSession

end Network
