import XMLHttpRequest.Session.Queued

/-
  A stopped session asks for nothing.

  Handlers of a stopped session still run, and what nghttp2
  reports in them is heard.  But until the next connection
  attempt nothing is given to nghttp2 or taken from it, and no
  read or write is started.

  Key definitions include:
    * `Network.QueuedEvent.connects?`
    * `Network.HttpTlsSession.Inert`
    * `Network.HttpTlsSession.Grounded`

  Key theorems include:
    * `Network.HttpTlsSession.stepQueued_inert`
    * `Network.HttpTlsSession.stopped_inert_run`
    * `Network.HttpTlsSession.grounded_run`
-/

------------------------------------------------------------
-- Inert Changes
------------------------------------------------------------

namespace Network

/- The connection attempt that an event makes. -/
def QueuedEvent.connects? : QueuedEvent → Option Connection
  | .session (.startResolve connection) => some connection
  | _ => none

/- The event ends a read that is under way, if there is one. -/
def QueuedEvent.endsRead : QueuedEvent → Bool
  | .session (.readDone _ _ _) => true
  | _ => false

/- The event ends a write that is under way, if there is one. -/
def QueuedEvent.endsWrite : QueuedEvent → Bool
  | .session (.writeDone _ _ _) => true
  | _ => false

namespace HttpTlsSession

/-
  The session is stopped.  Of the reads and writes under way
  so many have ended and none has been started, and nothing
  more has been given to nghttp2 or taken from it.
-/
structure Inert
    (reads writes : Nat)
    (s s' : HttpTlsSession) : Prop where
  stopped : s'.stopped = true
  session : s'.session = s.session
  nghttp2 : s'.nghttp2 = s.nghttp2
  reads : s'.sock.reads = s.sock.reads - reads
  writes : s'.sock.writes = s.sock.writes.drop writes

variable {s s' s'' : HttpTlsSession}

/- Nothing has ended that a stopped session asked for. -/
theorem Inert.of_same
    (hStopped : s'.stopped = true)
    (hSession : s'.session = s.session)
    (hNghttp2 : s'.nghttp2 = s.nghttp2)
    (hReads : s'.sock.reads = s.sock.reads)
    (hWrites : s'.sock.writes = s.sock.writes) :
    Inert 0 0 s s' :=
  ⟨hStopped, hSession, hNghttp2, hReads, hWrites⟩

theorem Inert.refl (hStopped : s.stopped = true) :
    Inert 0 0 s s :=
  .of_same hStopped rfl rfl rfl rfl

theorem Inert.trans
    {reads writes reads' writes' : Nat}
    (hFirst : Inert reads writes s s')
    (hSecond : Inert reads' writes' s' s'') :
    Inert (reads + reads') (writes + writes') s s'' where
  stopped := hSecond.stopped
  session := hSecond.session.trans hFirst.session
  nghttp2 := hSecond.nghttp2.trans hFirst.nghttp2
  reads := by
    rw [hSecond.reads, hFirst.reads, Nat.sub_sub]
  writes := by
    rw [hSecond.writes, hFirst.writes, List.drop_drop]

/- What ends nothing comes after what does. -/
theorem Inert.before
    {reads writes : Nat}
    (hFirst : Inert reads writes s s')
    (hSecond : Inert 0 0 s' s'') :
    Inert reads writes s s'' :=
  hFirst.trans hSecond

theorem Undisturbed.inert
    (hUndisturbed : Undisturbed s s')
    (hStopped : s.stopped = true) :
    Inert 0 0 s s' :=
  .of_same (hUndisturbed.stopped hStopped)
    hUndisturbed.session hUndisturbed.nghttp2
    (by rw [hUndisturbed.sock]) (by rw [hUndisturbed.sock])

end HttpTlsSession

end Network

------------------------------------------------------------
-- Steps
------------------------------------------------------------

namespace Network

namespace HttpTlsSession

variable {s s' : HttpTlsSession}

/- A stopped session does not write. -/
theorem write_inert
    {sends : List Send}
    (hWrite : s.write sends = some s')
    (hStopped : s.stopped = true) :
    Inert 0 0 s s' := by
  rw [s.write_of_stopped hStopped] at hWrite
  rw [← Option.some.inj hWrite]
  exact .refl hStopped

theorem readHandler_inert
    {ec : ErrorCode}
    {n : Nat}
    {recv : Recv}
    (hHandler : s.readHandler ec n recv = some s')
    (hStopped : s.stopped = true) :
    Inert 0 0 s s' := by
  have hUpcalls :
      Inert 0 0 s.hold (s.hold.upcalls recv.upcalls) :=
    (s.hold.upcalls_undisturbed recv.upcalls).inert hStopped
  have hHeld :
      Inert 0 0 s (s.hold.upcalls recv.upcalls).unlock :=
    .of_same hUpcalls.stopped hUpcalls.session
      hUpcalls.nghttp2 hUpcalls.reads hUpcalls.writes
  cases readHandled_of_some hHandler with
  | nothing _ => exact .refl hStopped
  | failed _ _ => exact s.stop_undisturbed.inert hStopped
  | refused _ _ _ =>
      have hStop :=
        hUpcalls.before
          ((stop_undisturbed _).inert hUpcalls.stopped)
      exact .of_same hStop.stopped hStop.session hStop.nghttp2
        hStop.reads hStop.writes
  | ended _ _ hWrite _ =>
      have hWritten :=
        hHeld.before (write_inert hWrite hHeld.stopped)
      exact hWritten.before
        ((stop_undisturbed _).inert hWritten.stopped)
  | goesOn _ _ hWrite _ =>
      have hWritten :=
        hHeld.before (write_inert hWrite hHeld.stopped)
      unfold read
      rw [if_pos hWritten.stopped]
      exact hWritten

theorem writeHandler_inert
    {ec : ErrorCode}
    {n : Nat}
    {sends : List Send}
    (hHandler : s.writeHandler ec n sends = some s')
    (hStopped : s.stopped = true) :
    Inert 0 0 s s' := by
  cases writeHandled_of_some hHandler with
  | stopped _ => exact s.stop_undisturbed.inert hStopped
  | cleared _ _ hWrite =>
      have hWritten := write_inert hWrite hStopped
      exact .of_same hWritten.stopped hWritten.session
        hWritten.nghttp2 hWritten.reads hWritten.writes

theorem pingHandler_inert
    {ec : ErrorCode}
    {sends : List Send}
    (hHandler : s.pingHandler ec sends = some s')
    (hStopped : s.stopped = true) :
    Inert 0 0 s s' := by
  rcases Option.map_eq_some_iff.mp hHandler with
    ⟨written, hWrite, rfl⟩
  have hSubmitted : s.submitPing ec = s := by
    simp [submitPing, hStopped]
  rw [hSubmitted] at hWrite
  have hWritten := write_inert hWrite hStopped
  exact .of_same hWritten.stopped hWritten.session
    hWritten.nghttp2 hWritten.reads hWritten.writes

theorem submit_inert
    {arguments : SubmitArguments}
    {submission : Submission}
    {result : ErrorCode × Int}
    (hSubmit :
      s.submit arguments submission = some (s', result))
    (hStopped : s.stopped = true) :
    Inert 0 0 s s' := by
  unfold submit at hSubmit
  rw [if_pos hStopped] at hSubmit
  cases hSubmit
  exact .refl hStopped

/- What ends no read or write that is under way. -/
theorem step_inert_of_other
    {event : SessionEvent}
    (hStopped : s.stopped = true)
    (hConnect :
      (QueuedEvent.session event).connects? = none)
    (hRead : (QueuedEvent.session event).endsRead = false)
    (hWritten : (QueuedEvent.session event).endsWrite = false)
    (hStep : s.step event = some s') :
    Inert 0 0 s s' := by
  cases step_handled hStep with
  | idle event hSame =>
      subst hSame
      exact .refl hStopped
  | startResolve connection ok hResolve => cases hConnect
  | readDone ec n recv reads hReads hHandler => cases hRead
  | readCancelled recv reads hReads hSame =>
      subst hSame
      exact .of_same hStopped rfl rfl rfl rfl
  | writeDone ec n sends data writes hWrites hHandler =>
      cases hWritten
  | writeCancelled sends writes hSame =>
      subst hSame
      refine .before ?_ ((stop_undisturbed _).inert hStopped)
      exact .of_same hStopped rfl rfl rfl rfl
  | pingExpired sends ping hHandler =>
      refine .before ?_ (pingHandler_inert hHandler hStopped)
      exact .of_same hStopped rfl rfl rfl rfl
  | pingCancelled sends ping hHandler =>
      refine .before ?_ (pingHandler_inert hHandler hStopped)
      exact .of_same hStopped rfl rfl rfl rfl
  | write sends hWrite => exact write_inert hWrite hStopped
  | submit arguments submission result hSubmit =>
      exact submit_inert hSubmit hStopped
  | startPing hSame =>
      subst hSame
      exact .of_same hStopped rfl rfl rfl rfl
  | cancelPing hSame =>
      subst hSame
      exact .of_same hStopped rfl rfl rfl rfl
  | stop hSame =>
      subst hSame
      exact s.stop_undisturbed.inert hStopped

theorem step_inert
    {event : SessionEvent}
    (hStopped : s.stopped = true)
    (hConnect :
      (QueuedEvent.session event).connects? = none)
    (hStep : s.step event = some s') :
    Inert (QueuedEvent.session event).endsRead.toNat
      (QueuedEvent.session event).endsWrite.toNat s s' := by
  cases event with
  | readDone ec n recv =>
      simp only [step] at hStep
      split at hStep
      · rename_i hNone
        rw [← Option.some.inj hStep]
        exact ⟨hStopped, rfl, rfl, by rw [hNone]; rfl, rfl⟩
      · rename_i reads hReads
        refine .before ?_ (readHandler_inert hStep hStopped)
        exact ⟨hStopped, rfl, rfl, by rw [hReads]; rfl, rfl⟩
  | writeDone ec n sends =>
      simp only [step] at hStep
      split at hStep
      · rename_i hNone
        rw [← Option.some.inj hStep]
        exact ⟨hStopped, rfl, rfl, rfl, by rw [hNone]; rfl⟩
      · rename_i data writes hWrites
        refine .before ?_ (writeHandler_inert hStep hStopped)
        exact ⟨hStopped, rfl, rfl, rfl, by rw [hWrites]; rfl⟩
  | _ =>
      exact step_inert_of_other hStopped hConnect rfl rfl hStep

theorem stepQueued_inert
    {event : QueuedEvent}
    (hStopped : s.stopped = true)
    (hConnect : event.connects? = none)
    (hStep : s.stepQueued event = some s') :
    Inert event.endsRead.toNat event.endsWrite.toNat s s' := by
  cases event with
  | session event => exact step_inert hStopped hConnect hStep
  | read ec n recv =>
      simp only [stepQueued] at hStep
      split at hStep
      · exact Option.some.inj hStep ▸ .refl hStopped
      · refine .before ?_ (readHandler_inert hStep hStopped)
        exact .of_same hStopped rfl rfl rfl rfl
  | write ec n sends =>
      simp only [stepQueued] at hStep
      split at hStep
      · exact Option.some.inj hStep ▸ .refl hStopped
      · refine .before ?_ (writeHandler_inert hStep hStopped)
        exact .of_same hStopped rfl rfl rfl rfl
  | ping ec sends =>
      simp only [stepQueued] at hStep
      split at hStep
      · exact Option.some.inj hStep ▸ .refl hStopped
      · refine .before ?_ (pingHandler_inert hStep hStopped)
        exact .of_same hStopped rfl rfl rfl rfl

/-
  A stopped session submits no settings, request or ping, is
  given no chunk and starts no read or write, whatever runs,
  until a connection is attempted again: what is under way is
  what there was, less what has ended.
-/
theorem stopped_inert_run
    {events : List QueuedEvent}
    (hStopped : s.stopped = true)
    (hConnects :
      ∀ event ∈ events, event.connects? = none)
    (hRun :
      Transition.exec stepQueued s events = some s') :
    Inert (events.countP (·.endsRead))
      (events.countP (·.endsWrite)) s s' := by
  induction events generalizing s with
  | nil =>
      have hSame : s = s' := Option.some.inj hRun
      exact hSame ▸ .refl hStopped
  | cons event events ih =>
      rcases Transition.exec_cons_eq_some_iff.mp hRun with
        ⟨next, hStep, hRest⟩
      rcases List.forall_mem_cons.mp hConnects with
        ⟨hFirst, hLater⟩
      have hInert := stepQueued_inert hStopped hFirst hStep
      have hBoth :=
        hInert.trans (ih hInert.stopped hLater hRest)
      have hCount (ends : QueuedEvent → Bool) :
          (event :: events).countP ends =
            (ends event).toNat + events.countP ends := by
        rw [List.countP_cons, Nat.add_comm]
        cases ends event <;> rfl
      rw [hCount, hCount]
      exact hBoth

/- The session that never connects, with a read under way. -/
def stoppedReader : HttpTlsSession :=
  { create (ascii "a") (ascii "443") zeroGarbage with
    session := true
    sock := { reads := 1 } }

theorem stopped_inert_run_reader :
    ∃ s',
      Transition.exec stepQueued stoppedReader
          [.session (.readDone {} 1 { rv := 1 }),
            .session submitRoot] = some s' ∧
        Inert 1 0 stoppedReader s' := by
  rcases Option.isSome_iff_exists.mp
      (show
        (Transition.exec stepQueued stoppedReader
          [.session (.readDone {} 1 { rv := 1 }),
            .session submitRoot]).isSome = true from rfl)
    with ⟨s', hRun⟩
  refine ⟨s', hRun, stopped_inert_run rfl ?_ hRun⟩
  decide

end HttpTlsSession

end Network

------------------------------------------------------------
-- Before nghttp2
------------------------------------------------------------

namespace Network

namespace HttpTlsSession

/-
  A running session has set up nghttp2.  Before that nothing
  has been given to it, and nothing is under way.
-/
structure Grounded (s : HttpTlsSession) : Prop where
  session : s.stopped = false → s.session = true
  nghttp2 : s.session = false → s.nghttp2 = {}
  reads : s.session = false → s.sock.reads = 0
  writes : s.session = false → s.sock.writes = []

variable {s s' : HttpTlsSession}

theorem grounded_of_session
    (hSession : s.session = true) :
    s.Grounded where
  session _ := hSession
  nghttp2 hNone := absurd (hSession.symm.trans hNone) nofun
  reads hNone := absurd (hSession.symm.trans hNone) nofun
  writes hNone := absurd (hSession.symm.trans hNone) nofun

theorem Inert.grounded
    {reads writes : Nat}
    (hInert : Inert reads writes s s')
    (hGrounded : s.Grounded) :
    s'.Grounded where
  session hRunning :=
    absurd (hInert.stopped.symm.trans hRunning) nofun
  nghttp2 hNone := by
    rw [hInert.nghttp2]
    exact hGrounded.nghttp2 (hInert.session.symm.trans hNone)
  reads hNone := by
    have hNoReads :=
      hGrounded.reads (hInert.session.symm.trans hNone)
    rw [hInert.reads, hNoReads, Nat.zero_sub]
  writes hNone := by
    have hNoWrites :=
      hGrounded.writes (hInert.session.symm.trans hNone)
    rw [hInert.writes, hNoWrites, List.drop_nil]

theorem readHandler_session
    {ec : ErrorCode}
    {n : Nat}
    {recv : Recv}
    (hHandler : s.readHandler ec n recv = some s') :
    s'.session = s.session := by
  rcases readHandler_cases hHandler with
    ⟨_, rfl⟩ | ⟨_, kept, hKept, ⟨_, rfl⟩ | ⟨_, rfl⟩⟩
  · rfl
  · exact hKept.session
  · exact hKept.session

/- Only a connection attempt sets up nghttp2. -/
theorem stepQueued_session
    {event : QueuedEvent}
    (hConnect : event.connects? = none)
    (hStep : s.stepQueued event = some s') :
    s'.session = s.session := by
  cases event with
  | session event =>
      have hStep : s.step event = some s' := hStep
      cases event with
      | startResolve connection => cases hConnect
      | readDone ec n recv =>
          simp only [step] at hStep
          split at hStep
          · rw [← Option.some.inj hStep]
          · have hSame := readHandler_session hStep
            exact hSame
      | readCancelled recv =>
          simp only [step] at hStep
          split at hStep
          · rw [← Option.some.inj hStep]
          · have hSame := readHandler_session hStep
            exact hSame
      | _ =>
          refine (step_kept ?_ ?_ ?_ hStep).session <;> simp
  | read ec n recv =>
      simp only [stepQueued] at hStep
      split at hStep
      · rw [← Option.some.inj hStep]
      · have hSame := readHandler_session hStep
        exact hSame
  | write ec n sends =>
      simp only [stepQueued] at hStep
      split at hStep
      · rw [← Option.some.inj hStep]
      · have hKept := writeHandler_kept hStep
        exact hKept.session
  | ping ec sends =>
      simp only [stepQueued] at hStep
      split at hStep
      · rw [← Option.some.inj hStep]
      · have hKept := pingHandler_kept hStep
        exact hKept.session

/-
  All that a connection attempt does, the socket being closed
  before the connect.
-/
inductive Attempted
    (s : HttpTlsSession)
    (connection : Connection) : HttpTlsSession → Prop
  | ended
      (sock : Socket)
      (hSock : sock = s.sock ∨ sock = s.sock.close) :
      Attempted s connection { s with sock := sock }.stop
  | again
      (sock : Socket)
      (hSock : sock = s.sock ∨ sock = s.sock.close)
      (hAgain :
        ¬ (s.session = false ∧
          connection.clientNew = true)) :
      Attempted s connection
        { s with
          sock := sock
          stopped := false }.invokeOnStart
  | greets
      (sock : Socket)
      (hSock : sock = s.sock ∨ sock = s.sock.close)
      (hFirst :
        s.session = false ∧ connection.clientNew = true)
      {written : HttpTlsSession}
      (hWrite :
        { s with sock := sock }.greeting.write
          connection.sends = some written) :
      Attempted s connection
        written.read.startPing.invokeOnStart

theorem step_attempted
    {connection : Connection}
    (hStep : s.step (.startResolve connection) = some s') :
    Attempted s connection s' := by
  rcases Option.map_eq_some_iff.mp hStep with
    ⟨⟨_, ok⟩, hResolve, rfl⟩
  have hStart :
      ∃ sock, (sock = s.sock ∨ sock = s.sock.close) ∧
        (s.startConnect connection).1 =
          { s with sock := sock } := by
    generalize hSame : (s.startConnect connection).1 =
      started
    cases connectStarted_of_eq hSame with
    | running _ => exact ⟨s.sock, .inl rfl, rfl⟩
    | closed _ => exact ⟨_, .inr rfl, rfl⟩
    | failed hStopped =>
        refine ⟨_, .inr rfl, ?_⟩
        unfold stop
        exact if_pos hStopped
  rcases hStart with ⟨sock, hSock, hStart⟩
  cases resolveStarted_of_some hResolve with
  | unresolved _ => exact .ended s.sock (.inl rfl)
  | unconnected _ _ =>
      rw [hStart]
      exact .ended sock hSock
  | connected _ _ hConnected =>
      rw [hStart] at hConnected
      cases socketConnected_of_some hConnected with
      | greets hFirst hWrite =>
          exact .greets sock hSock hFirst hWrite
      | again hAgain => exact .again sock hSock hAgain

/- An attempt sets up nghttp2 or stays on the ground. -/
theorem Attempted.grounded
    {connection : Connection}
    (hAttempt : Attempted s connection s')
    (hNew : connection.clientNew = true)
    (hGrounded : s.Grounded) :
    s'.Grounded := by
  have hInvoked
      {started : HttpTlsSession}
      (hSession : started.session = true) :
      started.invokeOnStart.Grounded := by
    apply grounded_of_session
    unfold invokeOnStart
    split <;> exact hSession
  cases hAttempt with
  | ended sock hSock =>
      have hStop := stop_undisturbed { s with sock := sock }
      rcases s.session.eq_false_or_eq_true with
        hSession | hSession
      · exact grounded_of_session
          (hStop.session.trans hSession)
      · have hClosed : sock.reads = 0 ∧ sock.writes = [] := by
          rcases hSock with rfl | rfl
          · exact ⟨hGrounded.reads hSession,
              hGrounded.writes hSession⟩
          · exact ⟨rfl, rfl⟩
        constructor
        · rw [stop_stopped]
          exact nofun
        · intro _
          exact hStop.nghttp2.trans
            (hGrounded.nghttp2 hSession)
        · intro _
          rw [hStop.sock]
          exact hClosed.1
        · intro _
          rw [hStop.sock]
          exact hClosed.2
  | again sock hSock hAgain =>
      apply hInvoked
      by_contra hNone
      exact hAgain ⟨Bool.eq_false_of_not_eq_true hNone, hNew⟩
  | @greets sock _ _ written hWrite =>
      apply hInvoked
      have hSession : written.session = true :=
        (write_kept _ hWrite).session
      unfold read
      split <;> exact hSession

/-
  As long as `nghttp2_session_client_new` succeeds, no running
  session is without its nghttp2 session, and before it has
  one nothing is submitted, written or read.
-/
theorem grounded_run
    {events : List QueuedEvent}
    (hFresh : s.Fresh)
    (hNew :
      ∀ event ∈ events, ∀ connection ∈ event.connects?,
        connection.clientNew = true)
    (hRun :
      Transition.exec stepQueued s events = some s') :
    s'.Grounded := by
  have hStart : s.Grounded := by
    constructor
    · intro hRunning
      exact absurd (hFresh.stopped.symm.trans hRunning) nofun
    · exact fun _ => hFresh.nghttp2
    · intro _
      rw [hFresh.sock]
    · intro _
      rw [hFresh.sock]
  clear hFresh
  induction events generalizing s with
  | nil =>
      have hSame : s = s' := Option.some.inj hRun
      exact hSame ▸ hStart
  | cons event events ih =>
      rcases Transition.exec_cons_eq_some_iff.mp hRun with
        ⟨next, hStep, hRest⟩
      rcases List.forall_mem_cons.mp hNew with
        ⟨hFirst, hLater⟩
      refine ih hLater hRest ?_
      cases hConnect : event.connects? with
      | none =>
          cases hStopped : s.stopped with
          | true =>
              exact (stepQueued_inert hStopped hConnect
                hStep).grounded hStart
          | false =>
              apply grounded_of_session
              rw [stepQueued_session hConnect hStep]
              exact hStart.session hStopped
      | some connection =>
          -- only a connection attempt connects
          have hEvent :
              event = .session (.startResolve connection) := by
            unfold QueuedEvent.connects? at hConnect
            split at hConnect
            · rw [Option.some.inj hConnect]
            · cases hConnect
          subst hEvent
          exact (step_attempted hStep).grounded
            (hFirst connection rfl) hStart

theorem grounded_run_connected :
    ∃ s',
      Transition.exec stepQueued
          (create (ascii "a") (ascii "443") zeroGarbage)
          [.session (.startResolve h2Connection),
            .session submitRoot] = some s' ∧
        s'.Grounded := by
  rcases Option.isSome_iff_exists.mp
      (show
        (Transition.exec stepQueued
          (create (ascii "a") (ascii "443") zeroGarbage)
          [.session (.startResolve h2Connection),
            .session submitRoot]).isSome = true from rfl)
    with ⟨s', hRun⟩
  refine ⟨s', hRun, grounded_run (create_fresh _ _ _) ?_ hRun⟩
  decide

end HttpTlsSession

end Network
