import XMLHttpRequest.Session.Frames

/-
  Whether a running session has a read under way.

  Key definitions include:
    * `Network.HttpTlsSession.Listening`
    * `Network.HttpTlsSession.KeepsReading`

  Key theorems include:
    * `Network.HttpTlsSession.step_reading`
    * `Network.HttpTlsSession.stopped_of_failsRead`
    * `Network.HttpTlsSession.listening_along_iff`
-/

------------------------------------------------------------
-- Listening Sessions
------------------------------------------------------------

namespace Network

namespace HttpTlsSession

/- A running session has exactly one read under way. -/
def Listening (s : HttpTlsSession) : Prop :=
  s.stopped = false → s.sock.reads = 1

/- The event completes a read with an error. -/
def failsRead
    (s : HttpTlsSession) :
    SessionEvent → Bool
  | .readDone ec _ _ => ec.failed && s.sock.reads ≠ 0
  | .readCancelled _ => s.sock.cancelledReads ≠ 0
  | _ => false

/-
  Every state that the step leaves is listening, and stopped
  if a read has failed.
-/
def LeavesListening
    (s : HttpTlsSession)
    (event : SessionEvent) : Prop :=
  ∀ s', s.step event = some s' →
    s'.Listening ∧
      (s.failsRead event = true → s'.stopped = true)

/-
  The step brings bytes to a running session, or connects a
  session for the first time with a new nghttp2 session, or
  is none of these.
-/
def KeepsReading
    (s : HttpTlsSession) :
    SessionEvent → Prop
  | .readDone _ n _ => s.stopped = false → n ≠ 0
  | .startResolve connection =>
      s.stopped = true → connection.succeeds = true →
        s.session = false ∧ connection.clientNew = true
  | _ => True

/-
  The reads of a session: one when it runs, on a socket that
  was not closed before, and none before nghttp2 is set up.
-/
structure Reading (s : HttpTlsSession) : Prop where
  running :
    s.stopped = false →
      s.sock.reads = 1 ∧ s.sock.cancelledReads = 0 ∧
        s.session = true
  unset :
    s.session = false →
      s.sock.reads = 0 ∧ s.sock.cancelledReads = 0

theorem Fresh.reading
    {s : HttpTlsSession}
    (hFresh : s.Fresh) :
    s.Reading where
  running hRunning := by
    rw [hFresh.stopped] at hRunning
    cases hRunning
  unset _ := by
    rw [hFresh.sock]
    exact ⟨rfl, rfl⟩

variable {s s' : HttpTlsSession}

theorem Kept.reading
    (hKept : Kept s s')
    (hReading : s.Reading) :
    s'.Reading where
  running hRunning := by
    have hBefore : s.stopped = false := by
      cases hStopped : s.stopped with
      | false => rfl
      | true =>
          rw [hKept.stopped hStopped] at hRunning
          cases hRunning
    rw [hKept.reads, hKept.cancelledReads, hKept.session]
    exact hReading.running hBefore
  unset hUnset := by
    rw [hKept.reads, hKept.cancelledReads]
    rw [hKept.session] at hUnset
    exact hReading.unset hUnset

theorem stop_reading
    (hReading : s.Reading) :
    s.stop.Reading :=
  s.stop_undisturbed.kept.reading hReading

end HttpTlsSession

end Network

------------------------------------------------------------
-- Steps
------------------------------------------------------------

namespace Network

namespace HttpTlsSession

variable {s s' : HttpTlsSession}

theorem invokeOnStart_reading
    (hReading : s.Reading) :
    s.invokeOnStart.Reading := by
  unfold invokeOnStart
  split
  · exact ⟨hReading.running, hReading.unset⟩
  · exact hReading

/- The first setup of nghttp2 starts a read. -/
theorem greeting_reading
    (hUnset : s.sock.reads = 0 ∧ s.sock.cancelledReads = 0)
    {sends : List Send}
    {written : HttpTlsSession}
    (hWrite : s.greeting.write sends = some written) :
    written.read.startPing.Reading := by
  have hKept := write_kept _ hWrite
  have hReads : written.sock.reads = 0 :=
    hKept.reads.trans hUnset.1
  have hCancelled : written.sock.cancelledReads = 0 :=
    hKept.cancelledReads.trans hUnset.2
  have hSession : written.session = true := hKept.session
  cases hStopped : written.stopped with
  | true =>
      have hRead : written.read = written := by
        simp [read, hStopped]
      rw [hRead]
      constructor
      · intro hRunning
        exact absurd (hStopped.symm.trans hRunning)
          (by decide)
      · intro hNone
        exact absurd (hSession.symm.trans hNone) (by decide)
  | false =>
      have hRead : written.read = written.readSocket := by
        simp [read, hStopped]
      rw [hRead]
      constructor
      · intro _
        exact ⟨congrArg (· + 1) hReads, hCancelled,
          hSession⟩
      · intro hNone
        exact absurd (hSession.symm.trans hNone) (by decide)

/- What a connection attempt keeps, if it is the first. -/
theorem startResolve_reading
    (hReading : s.Reading)
    {connection : Connection}
    (hKeeps : s.KeepsReading (.startResolve connection))
    (hStep : s.step (.startResolve connection) = some s') :
    s'.Reading := by
  simp only [step] at hStep
  cases hStopped : s.stopped with
  | false =>
      rw [s.startResolve_of_running hStopped] at hStep
      split at hStep
      · rw [← Option.some.inj hStep]
        exact stop_reading hReading
      · -- nghttp2 has been set up, so nothing is started
        have hSession := (hReading.running hStopped).2.2
        rw [s.onSocketConnected_eq, if_neg (by simp [hSession]),
          Option.map_some, Option.some.injEq] at hStep
        rw [← hStep]
        apply invokeOnStart_reading
        exact ⟨fun _ => hReading.running hStopped,
          hReading.unset⟩
  | true =>
      rw [s.startResolve_of_stopped hStopped] at hStep
      split at hStep
      · rw [← Option.some.inj hStep]
        exact hReading
      · split at hStep
        · rename_i hSucceeds
          have hFirst := hKeeps hStopped hSucceeds
          have hUnset := hReading.unset hFirst.1
          rw [onSocketConnected_eq, if_pos hFirst,
            Option.map_map] at hStep
          rcases Option.map_eq_some_iff.mp hStep with
            ⟨written, hWrite, rfl⟩
          apply invokeOnStart_reading
          refine greeting_reading ?_ hWrite
          simp [Socket.close, hUnset.1, hUnset.2]
        · rw [← Option.some.inj hStep]
          constructor
          · intro hRunning
            exact absurd (hStopped.symm.trans hRunning)
              (by decide)
          · intro hNone
            have hUnset := hReading.unset hNone
            simp [Socket.close, hUnset.1, hUnset.2]

/- A read that has completed is followed by another one. -/
theorem readDone_reading
    (hReading : s.Reading)
    {ec : ErrorCode}
    {n : Nat}
    {recv : Recv}
    (hKeeps : s.KeepsReading (.readDone ec n recv))
    (hStep : s.step (.readDone ec n recv) = some s') :
    s'.Reading := by
  cases step_handled hStep with
  | idle _ hSame => exact hSame ▸ hReading
  | readDone _ _ _ reads hReads hHandler =>
      have hSession : s.session = true := by
        cases hSession : s.session with
        | true => rfl
        | false =>
            have hNone := (hReading.unset hSession).1
            omega
      rcases readHandler_cases hHandler with
        ⟨hZero, rfl⟩ | ⟨_, kept, hKept, hEnd⟩
      · constructor
        · intro hRunning
          exact absurd hZero (hKeeps hRunning)
        · intro hNone
          exact absurd (hSession.symm.trans hNone)
            (by decide)
      · have hSame : kept.session = true :=
          hKept.session.trans hSession
        rcases hEnd with ⟨hStopped, rfl⟩ | ⟨hRunning, rfl⟩
        · constructor
          · intro hRunning
            exact absurd (hStopped.symm.trans hRunning)
              (by decide)
          · intro hNone
            exact absurd (hSame.symm.trans hNone)
              (by decide)
        · have hBefore : s.stopped = false := by
            cases h : s.stopped with
            | false => rfl
            | true =>
                exact absurd
                  ((hKept.stopped h).symm.trans hRunning)
                  (by decide)
          have hOne := hReading.running hBefore
          have hPopped : reads = 0 := by omega
          refine ⟨fun _ => ⟨?_, ?_, hSame⟩,
            fun hNone => ?_⟩
          · exact congrArg (· + 1)
              (hKept.reads.trans hPopped)
          · exact hKept.cancelledReads.trans hOne.2.1
          · exact absurd (hSame.symm.trans hNone)
              (by decide)

/- Reads that a reconnection cancelled end on a stopped one. -/
theorem readCancelled_reading
    (hReading : s.Reading)
    {recv : Recv}
    (hStep : s.step (.readCancelled recv) = some s') :
    s'.Reading := by
  cases step_handled hStep with
  | idle _ hSame => exact hSame ▸ hReading
  | readCancelled _ reads hReads hSame =>
      subst hSame
      constructor
      · intro hRunning
        have hZero := (hReading.running hRunning).2.1
        omega
      · intro hNone
        have hZero := (hReading.unset hNone).2
        omega

/- A step that keeps reading keeps the invariant. -/
theorem step_reading
    (hReading : s.Reading)
    {event : SessionEvent}
    (hKeeps : s.KeepsReading event)
    (hStep : s.step event = some s') :
    s'.Reading := by
  cases event with
  | startResolve connection =>
      exact startResolve_reading hReading hKeeps hStep
  | readDone ec n recv =>
      exact readDone_reading hReading hKeeps hStep
  | readCancelled recv =>
      exact readCancelled_reading hReading hStep
  | _ =>
      refine Kept.reading (step_kept ?_ ?_ ?_ hStep) hReading
      all_goals
        intros
        simp

/- Where a step keeps reading, a failed read stops. -/
theorem stopped_of_failsRead
    (hReading : s.Reading)
    {event : SessionEvent}
    (hKeeps : s.KeepsReading event)
    (hFails : s.failsRead event = true)
    (hStep : s.step event = some s') :
    s'.stopped = true := by
  cases event with
  | readDone ec n recv =>
      simp only [failsRead, Bool.and_eq_true,
        decide_eq_true_eq] at hFails
      rcases Nat.exists_eq_succ_of_ne_zero hFails.2 with
        ⟨reads, hReads⟩
      simp only [step, hReads, readHandler] at hStep
      split at hStep
      · rename_i hZero
        rw [← Option.some.inj hStep]
        by_contra hRunning
        exact hKeeps (by simpa using hRunning) hZero
      · rw [if_pos hFails.1, Option.some.injEq] at hStep
        rw [← hStep]
        exact stop_stopped _
  | readCancelled recv =>
      by_contra hRunning
      have hBefore : s.stopped = false := by
        cases step_handled hStep with
        | idle _ hSame => simpa [hSame] using hRunning
        | readCancelled _ _ _ hSame =>
            simpa [hSame] using hRunning
      have hNone := (hReading.running hBefore).2.1
      simp [failsRead, hNone] at hFails
  | _ => cases hFails

/- Only such a step leaves a listening session. -/
theorem keepsReading_of_leavesListening
    (hReading : s.Reading)
    {event : SessionEvent}
    (hLeaves : s.LeavesListening event) :
    s.KeepsReading event := by
  cases event with
  | readDone ec n recv =>
      rintro hRunning rfl
      have hOne := (hReading.running hRunning).1
      -- the handler returns at once, with no read under way
      have hStep :
          s.step (.readDone ec 0 recv) =
            some { s with
              sock := { s.sock with reads := 0 } } := by
        simp [step, hOne, readHandler]
      exact absurd ((hLeaves _ hStep).1 hRunning) (by simp)
  | startResolve connection =>
      intro hStopped hSucceeds
      by_contra hAgain
      have hResolve : connection.resolve.failed = false := by
        simp only [Connection.succeeds, Bool.and_eq_true,
          Bool.not_eq_true'] at hSucceeds
        exact hSucceeds.1.1
      have hStep :
          s.step (.startResolve connection) =
            some (invokeOnStart
              { s with
                sock := s.sock.close
                stopped := false }) := by
        simp only [step]
        rw [s.startResolve_of_stopped hStopped, hResolve,
          hSucceeds, onSocketConnected_eq, if_neg hAgain]
        rfl
      have hListening := (hLeaves _ hStep).1
      unfold Listening invokeOnStart at hListening
      split at hListening <;>
        exact absurd (hListening rfl) (by simp [Socket.close])
  | _ => trivial

end HttpTlsSession

end Network

------------------------------------------------------------
-- Runs
------------------------------------------------------------

namespace Network

namespace HttpTlsSession

/-
  Every state that a run reaches is listening, and stopped if
  a read has just failed, exactly when every step of the run
  keeps reading.
-/
theorem listening_along_iff
    (s : HttpTlsSession)
    (hFresh : s.Fresh)
    (events : List SessionEvent) :
    Transition.Along step LeavesListening s events ↔
      Transition.Along step KeepsReading s events := by
  have hKeeps :
      ∀ s event, Reading s →
        (s.LeavesListening event ↔ s.KeepsReading event) := by
    intro s event hReading
    refine ⟨keepsReading_of_leavesListening hReading, ?_⟩
    intro hKeeps s' hStep
    have hAfter := step_reading hReading hKeeps hStep
    exact ⟨fun hRunning => (hAfter.running hRunning).1,
      fun hFails =>
        stopped_of_failsRead hReading hKeeps hFails hStep⟩
  apply Transition.along_congr (I := Reading) hKeeps
  · intro s event s' hReading hLeaves hStep
    exact step_reading hReading
      ((hKeeps s event hReading).mp hLeaves) hStep
  · exact hFresh.reading

/- A connected session that receives and answers. -/
theorem listening_along_exchange :
    Transition.Along step LeavesListening
      (create (ascii "a") (ascii "443") zeroGarbage)
      (connectedRun ++
        [.writeDone {} 3 [],
          .readDone {} 1 { rv := 1 }]) := by
  refine
    (listening_along_iff _ (create_fresh _ _ _) _).mpr ?_
  refine ⟨fun _ _ => ⟨rfl, rfl⟩, fun s₁ _ => ⟨trivial, ?_⟩⟩
  exact fun s₂ _ => ⟨fun _ => by decide, fun _ _ => trivial⟩

/- `boost::asio::error::eof` -/
def endOfFile : ErrorCode := ⟨2⟩

/- A read that fails with no bytes leaves no read behind. -/
theorem failed_read_not_listening :
    ¬ Transition.Along step LeavesListening
      (create (ascii "a") (ascii "443") zeroGarbage)
      (connectedRun ++
        [.readDone endOfFile 0 { rv := 0 }]) := by
  intro hAlong
  have hFinal :
      ((Transition.exec step
        (create (ascii "a") (ascii "443") zeroGarbage)
        (connectedRun ++
          [.readDone endOfFile 0 { rv := 0 }])).map
            fun s => (s.stopped, s.sock.reads)) =
        some (false, 0) := by
    decide +kernel
  rcases Option.map_eq_some_iff.mp hFinal with
    ⟨final, hRun, hState⟩
  rcases Transition.exec_append_eq_some_iff.mp hRun with
    ⟨connected, hConnected, hRead⟩
  rcases Transition.exec_cons_eq_some_iff.mp hRead with
    ⟨next, hStep, hEnd⟩
  have hSame : next = final := by simpa using hEnd
  subst hSame
  have hListening := (hAlong.last hConnected next hStep).1
  simp only [Prod.mk.injEq] at hState
  exact absurd (hState.2.symm.trans (hListening hState.1))
    (by decide)

end HttpTlsSession

end Network
