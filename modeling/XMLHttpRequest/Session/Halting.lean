import XMLHttpRequest.Session.Frames

/-
  When a session has stopped its io_service.

  Whoever stops a running session stops the io_service as
  well, so a session whose ready closure stops it has stopped
  the io_service once that closure has been invoked.

  Key definitions include:
    * `Network.HttpTlsSession.answered`
    * `Network.HttpTlsSession.Halting`
    * `Network.HttpTlsSession.Orderly`

  Key theorems include:
    * `Network.HttpTlsSession.upcalls_halting`
    * `Network.HttpTlsSession.write_orderly`
    * `Network.HttpTlsSession.step_orderly`
-/

------------------------------------------------------------
-- Orderly Sessions
------------------------------------------------------------

namespace Network

/- The closure of the ready callback was invoked. -/
def Invocation.isReady : Invocation → Bool
  | .call c => c.isReady
  | _ => false

namespace HttpTlsSession

/- A ready closure has been invoked so far. -/
def answered (s : HttpTlsSession) : Bool :=
  s.log.any (·.isReady)

/-
  The io_service is stopped if the session is, or if a ready
  closure that `stops` the session has been invoked.
-/
structure Halting
    (stops : Bool)
    (s : HttpTlsSession) : Prop where
  readyStops : s.readyStops = stops
  stopped : s.stopped = true → s.serviceStopped = true
  answered :
    stops = true → s.answered = true →
      s.serviceStopped = true

/- As above, but a session that never ran is stopped too. -/
structure Orderly
    (stops : Bool)
    (s : HttpTlsSession) : Prop where
  readyStops : s.readyStops = stops
  idle :
    s.stopped = true →
      s.serviceStopped = true ∨ s.sock.reads = 0
  answered :
    stops = true → s.answered = true →
      s.serviceStopped = true

variable {stops : Bool}
variable {s s' : HttpTlsSession}

theorem Halting.orderly
    (hHalting : s.Halting stops) :
    s.Orderly stops :=
  ⟨hHalting.readyStops,
    fun hStopped => .inl (hHalting.stopped hStopped),
    hHalting.answered⟩

/- A running session is halting if it is orderly. -/
theorem Orderly.halting
    (hOrderly : s.Orderly stops)
    (hRunning : s.stopped = false) :
    s.Halting stops :=
  ⟨hOrderly.readyStops,
    fun hStopped =>
      absurd (hRunning.symm.trans hStopped) (by decide),
    hOrderly.answered⟩

theorem halting_of_serviceStopped
    (hStops : s.readyStops = stops)
    (hService : s.serviceStopped = true) :
    s.Halting stops :=
  ⟨hStops, fun _ => hService, fun _ _ => hService⟩

end HttpTlsSession

end Network

------------------------------------------------------------
-- Upcalls
------------------------------------------------------------

namespace Network

namespace HttpTlsSession

variable {stops : Bool}
variable {s s' : HttpTlsSession}

@[simp] theorem stop_readyStops :
    s.stop.readyStops = s.readyStops := by
  unfold stop
  split <;> rfl

theorem stop_serviceStopped
    (hStopped :
      s.stopped = true → s.serviceStopped = true) :
    s.stop.serviceStopped = true := by
  unfold stop
  split
  · rename_i hAlready
    exact hStopped hAlready
  · rfl

theorem stop_halting
    (hHalting : s.Halting stops) :
    s.stop.Halting stops :=
  halting_of_serviceStopped
    (stop_readyStops.trans hHalting.readyStops)
    (stop_serviceStopped hHalting.stopped)

theorem stop_orderly
    (hOrderly : s.Orderly stops) :
    s.stop.Orderly stops := by
  cases hStopped : s.stopped with
  | true =>
      have hSame : s.stop = s := by simp [stop, hStopped]
      exact hSame.symm ▸ hOrderly
  | false =>
      exact (stop_halting (hOrderly.halting hStopped)).orderly

/- A ready closure stops the session if it is to. -/
theorem runCallback_halting
    (hHalting : s.Halting stops)
    (c : Callback) :
    (s.runCallback c).Halting stops := by
  unfold runCallback
  simp only
  split
  · refine halting_of_serviceStopped ?_ ?_
    · exact stop_readyStops.trans hHalting.readyStops
    · exact stop_serviceStopped hHalting.stopped
  · rename_i hQuiet
    refine ⟨hHalting.readyStops, hHalting.stopped, ?_⟩
    intro hStops hAnswered
    have hReady : s.readyStops = true :=
      hHalting.readyStops.trans hStops
    have hNone :
        (s.toCallbackState.apply c).2.any (·.isReady) =
          false := by
      simpa [hReady] using hQuiet
    apply hHalting.answered hStops
    simpa [answered, Invocation.isReady, List.any_append,
      List.any_map, Function.comp_def, hNone] using hAnswered

theorem upcalls_halting
    (hHalting : s.Halting stops)
    (upcalls : List Upcall) :
    (s.upcalls upcalls).Halting stops := by
  induction upcalls generalizing s with
  | nil => exact hHalting
  | cons upcall upcalls ih =>
      cases upcall with
      | callback c =>
          exact ih (runCallback_halting hHalting c)
      | stop => exact ih (stop_halting hHalting)

end HttpTlsSession

end Network

------------------------------------------------------------
-- Operations
------------------------------------------------------------

namespace Network

namespace HttpTlsSession

variable {stops : Bool}
variable {s s' : HttpTlsSession}

theorem stagePending_halting
    (hHalting : s.Halting stops) :
    s.stagePending.Halting stops := by
  unfold stagePending
  split <;>
    exact ⟨hHalting.readyStops, hHalting.stopped,
      hHalting.answered⟩

theorem sendLoop_halting
    (hHalting : s.Halting stops)
    (sends : List Send) :
    (s.sendLoop sends).1.Halting stops := by
  induction sends generalizing s with
  | nil => exact hHalting
  | cons send sends ih =>
      have hUpcalls := upcalls_halting hHalting send.upcalls
      simp only [sendLoop]
      split
      · exact stop_halting hUpcalls
      · exact hUpcalls
      · split
        · exact ⟨hUpcalls.readyStops, hUpcalls.stopped,
            hUpcalls.answered⟩
        · exact ih ⟨hUpcalls.readyStops, hUpcalls.stopped,
            hUpcalls.answered⟩

/- nghttp2 is asked for data by a running session only. -/
theorem write_orderly
    (hOrderly : s.Orderly stops)
    {sends : List Send}
    (hWrite : s.write sends = some s') :
    s'.Orderly stops := by
  rcases s.write_cases hWrite with
    ⟨_, rfl⟩ | ⟨hRunning, _, _, hPumped⟩
  · exact hOrderly
  · have hStaged :=
      stagePending_halting (hOrderly.halting hRunning)
    have hHeld : s.stagePending.hold.Halting stops :=
      ⟨hStaged.readyStops, hStaged.stopped,
        hStaged.answered⟩
    have hDone : (s.pumped sends).1.Orderly stops :=
      (sendLoop_halting hHeld sends).orderly
    rcases hPumped with ⟨_, rfl⟩ | ⟨_, rfl⟩
    · exact ⟨hDone.readyStops, hDone.idle, hDone.answered⟩
    · exact ⟨hDone.readyStops, hDone.idle, hDone.answered⟩

theorem writeHandler_orderly
    (hOrderly : s.Orderly stops)
    {ec : ErrorCode}
    {n : Nat}
    {sends : List Send}
    (hHandler : s.writeHandler ec n sends = some s') :
    s'.Orderly stops := by
  cases writeHandled_of_some hHandler with
  | stopped _ => exact stop_orderly hOrderly
  | cleared _ _ hWrite =>
      refine write_orderly ?_ hWrite
      exact ⟨hOrderly.readyStops, hOrderly.idle,
        hOrderly.answered⟩

theorem pingHandler_orderly
    (hOrderly : s.Orderly stops)
    {ec : ErrorCode}
    {sends : List Send}
    (hHandler : s.pingHandler ec sends = some s') :
    s'.Orderly stops := by
  have hSubmitted : (s.submitPing ec).Orderly stops := by
    unfold submitPing
    split
    · exact hOrderly
    · exact ⟨hOrderly.readyStops, hOrderly.idle,
        hOrderly.answered⟩
  rcases Option.map_eq_some_iff.mp hHandler with
    ⟨written, hWrite, rfl⟩
  have hWritten := write_orderly hSubmitted hWrite
  exact ⟨hWritten.readyStops, hWritten.idle,
    hWritten.answered⟩

theorem submit_orderly
    (hOrderly : s.Orderly stops)
    {arguments : SubmitArguments}
    {submission : Submission}
    {result : ErrorCode × Int}
    (hSubmit :
      s.submit arguments submission = some (s', result)) :
    s'.Orderly stops := by
  rcases submit_cases hSubmit with
    rfl | ⟨request, written, hLocked, rfl⟩
  · exact hOrderly
  · rcases writeLocked_cases hLocked with
      ⟨_, rfl⟩ | ⟨_, pumped, hWrite, rfl⟩
    · exact ⟨hOrderly.readyStops, hOrderly.idle,
        hOrderly.answered⟩
    · have hHeld :
          (s.receiveRequest request).hold.Orderly stops :=
        ⟨hOrderly.readyStops, hOrderly.idle,
          hOrderly.answered⟩
      have hWritten := write_orderly hHeld hWrite
      exact ⟨hWritten.readyStops, hWritten.idle,
        hWritten.answered⟩

theorem read_orderly
    (hOrderly : s.Orderly stops) :
    s.read.Orderly stops := by
  unfold read
  split
  · exact hOrderly
  · rename_i hRunning
    exact ⟨hOrderly.readyStops,
      fun hStopped => absurd hStopped hRunning,
      hOrderly.answered⟩

/- A read completes with a session that has run. -/
theorem readHandler_orderly
    (hHalting : s.Halting stops)
    {ec : ErrorCode}
    {n : Nat}
    {recv : Recv}
    (hHandler : s.readHandler ec n recv = some s') :
    s'.Orderly stops := by
  have hHeld : s.hold.Halting stops :=
    ⟨hHalting.readyStops, hHalting.stopped,
      hHalting.answered⟩
  have hUpcalls := upcalls_halting hHeld recv.upcalls
  have hUnlocked :
      (s.hold.upcalls recv.upcalls).unlock.Orderly stops :=
    ⟨hUpcalls.readyStops, hUpcalls.orderly.idle,
      hUpcalls.answered⟩
  cases readHandled_of_some hHandler with
  | nothing _ => exact hHalting.orderly
  | failed _ _ => exact (stop_halting hHalting).orderly
  | refused _ _ _ =>
      have hStopped := (stop_halting hUpcalls).orderly
      exact ⟨hStopped.readyStops, hStopped.idle,
        hStopped.answered⟩
  | ended _ _ hWrite _ =>
      exact stop_orderly (write_orderly hUnlocked hWrite)
  | goesOn _ _ hWrite _ =>
      exact read_orderly (write_orderly hUnlocked hWrite)

end HttpTlsSession

end Network

------------------------------------------------------------
-- Steps
------------------------------------------------------------

namespace Network

namespace HttpTlsSession

variable {stops : Bool}
variable {s s' : HttpTlsSession}

theorem onSocketConnected_orderly
    (hOrderly : s.Orderly stops)
    {connection : Connection}
    (hConnected : s.onSocketConnected connection = some s') :
    s'.Orderly stops := by
  cases socketConnected_of_some hConnected with
  | greets _ hWrite =>
      have hGreeting : s.greeting.Orderly stops :=
        ⟨hOrderly.readyStops, nofun, hOrderly.answered⟩
      have hRead :=
        read_orderly (write_orderly hGreeting hWrite)
      exact ⟨hRead.readyStops, hRead.idle, hRead.answered⟩
  | again _ =>
      exact ⟨hOrderly.readyStops, nofun, hOrderly.answered⟩

theorem startConnect_orderly
    (hOrderly : s.Orderly stops)
    (connection : Connection) :
    (s.startConnect connection).1.Orderly stops := by
  have hClosed (hStopped : s.stopped = true) :
      { s with sock := s.sock.close }.Orderly stops :=
    ⟨hOrderly.readyStops, fun _ => .inr rfl,
      hOrderly.answered⟩
  generalize hStart : (s.startConnect connection).1 = started
  cases connectStarted_of_eq hStart with
  | running _ => exact hOrderly
  | closed hStopped => exact hClosed hStopped
  | failed hStopped => exact stop_orderly (hClosed hStopped)

theorem invokeOnStart_orderly
    (hOrderly : s.Orderly stops) :
    s.invokeOnStart.Orderly stops := by
  unfold invokeOnStart
  split
  · refine ⟨hOrderly.readyStops, hOrderly.idle, ?_⟩
    intro hStops hAnswered
    apply hOrderly.answered hStops
    simpa [answered, Invocation.isReady] using hAnswered
  · exact hOrderly

theorem startResolve_orderly
    (hOrderly : s.Orderly stops)
    {connection : Connection}
    {ok : Bool}
    (hResolve : s.startResolve connection = some (s', ok)) :
    s'.Orderly stops := by
  have hConnect :=
    startConnect_orderly hOrderly connection
  cases resolveStarted_of_some hResolve with
  | unresolved _ => exact stop_orderly hOrderly
  | unconnected _ _ => exact stop_orderly hConnect
  | connected _ _ hConnected =>
      exact invokeOnStart_orderly
        (onSocketConnected_orderly hConnect hConnected)

theorem step_orderly
    (hOrderly : s.Orderly stops)
    {event : SessionEvent}
    (hStep : s.step event = some s') :
    s'.Orderly stops := by
  cases step_handled hStep with
  | idle event hEnd => exact hEnd ▸ hOrderly
  | startResolve connection ok hResolve =>
      exact startResolve_orderly hOrderly hResolve
  | readDone ec n recv reads hReads hHandler =>
      -- with a read under way a stop has been made
      refine readHandler_orderly ?_ hHandler
      refine ⟨hOrderly.readyStops, ?_, hOrderly.answered⟩
      intro hStopped
      rcases hOrderly.idle hStopped with hService | hNone
      · exact hService
      · omega
  | readCancelled recv reads hReads hEnd =>
      subst hEnd
      exact ⟨hOrderly.readyStops, hOrderly.idle,
        hOrderly.answered⟩
  | writeDone ec n sends data writes hWrites hHandler =>
      refine writeHandler_orderly ?_ hHandler
      exact ⟨hOrderly.readyStops, hOrderly.idle,
        hOrderly.answered⟩
  | writeCancelled sends writes hEnd =>
      apply hEnd ▸ stop_orderly
      exact ⟨hOrderly.readyStops, hOrderly.idle,
        hOrderly.answered⟩
  | pingExpired sends ping hHandler =>
      refine pingHandler_orderly ?_ hHandler
      exact ⟨hOrderly.readyStops, hOrderly.idle,
        hOrderly.answered⟩
  | pingCancelled sends ping hHandler =>
      refine pingHandler_orderly ?_ hHandler
      exact ⟨hOrderly.readyStops, hOrderly.idle,
        hOrderly.answered⟩
  | write sends hWrite =>
      exact write_orderly hOrderly hWrite
  | submit arguments submission result hSubmit =>
      exact submit_orderly hOrderly hSubmit
  | startPing hEnd =>
      subst hEnd
      exact ⟨hOrderly.readyStops, hOrderly.idle,
        hOrderly.answered⟩
  | cancelPing hEnd =>
      subst hEnd
      exact ⟨hOrderly.readyStops, hOrderly.idle,
        hOrderly.answered⟩
  | stop hEnd => exact hEnd ▸ stop_orderly hOrderly

theorem exec_orderly
    (hOrderly : s.Orderly stops)
    {events : List SessionEvent}
    (hExec :
      Transition.exec step s events = some s') :
    s'.Orderly stops := by
  induction events generalizing s with
  | nil =>
      cases hExec
      exact hOrderly
  | cons event events ih =>
      rcases Transition.exec_cons_eq_some_iff.mp hExec with
        ⟨next, hStep, hRest⟩
      exact ih (step_orderly hOrderly hStep) hRest

end HttpTlsSession

end Network
