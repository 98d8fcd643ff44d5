import XMLHttpRequest.Session.Inert

/-
  What is kept in balance over the life of a session.

  A session greets its peer once, when it sets up nghttp2.
  From then on one read at most is under way, and the handlers
  of the ping timer are never let go: each that runs, even of
  a cancelled wait, leaves another one behind.

  Key definitions include:
    * `Network.HttpTlsSession.readHandlers`
    * `Network.HttpTlsSession.pingHandlers`
    * `Network.HttpTlsSession.Balanced`

  Key theorems include:
    * `Network.HttpTlsSession.stepQueued_balanced`
    * `Network.HttpTlsSession.greets_once_run`
    * `Network.HttpTlsSession.single_read_run`
    * `Network.HttpTlsSession.pingHandlers_run`
-/

------------------------------------------------------------
-- Handlers
------------------------------------------------------------

namespace Network

/- The event starts the pings from outside of their timer. -/
def QueuedEvent.startsPing : QueuedEvent → Bool
  | .session .startPing => true
  | _ => false

namespace HttpTlsSession

/- Reads whose handlers have not run yet. -/
def readHandlers (s : HttpTlsSession) : Nat :=
  s.sock.reads + s.sock.cancelledReads

/- Waits for the next ping whose handlers have not run yet. -/
def pingHandlers (s : HttpTlsSession) : Nat :=
  s.ping.waits + s.ping.cancelled

/-
  A session that has greeted its peer, or not, and whose pings
  have been started from outside `started` times since.
-/
structure Balanced
    (started : Nat)
    (s : HttpTlsSession) : Prop where
  settings : s.nghttp2.settings = s.session.toNat
  reads : s.readHandlers ≤ s.session.toNat
  pings : s.pingHandlers = s.session.toNat + started
  waits : s.ping.waits ≤ 1

/- No handler has been added or has run. -/
structure SameHandlers (s s' : HttpTlsSession) : Prop where
  session : s'.session = s.session
  settings : s'.nghttp2.settings = s.nghttp2.settings
  reads : s'.readHandlers = s.readHandlers
  pings : s'.pingHandlers = s.pingHandlers
  waits : s'.ping.waits ≤ s.ping.waits

variable {s s' s'' : HttpTlsSession}
variable {started : Nat}

namespace SameHandlers

protected theorem refl (s : HttpTlsSession) :
    SameHandlers s s :=
  ⟨rfl, rfl, rfl, rfl, Nat.le_refl _⟩

protected theorem trans
    (hFirst : SameHandlers s s')
    (hSecond : SameHandlers s' s'') :
    SameHandlers s s'' where
  session := hSecond.session.trans hFirst.session
  settings := hSecond.settings.trans hFirst.settings
  reads := hSecond.reads.trans hFirst.reads
  pings := hSecond.pings.trans hFirst.pings
  waits := hSecond.waits.trans hFirst.waits

theorem balanced
    (hSame : SameHandlers s s')
    (hBalanced : s.Balanced started) :
    s'.Balanced started where
  settings := by
    rw [hSame.settings, hSame.session]
    exact hBalanced.settings
  reads := by
    rw [hSame.reads, hSame.session]
    exact hBalanced.reads
  pings := by
    rw [hSame.pings, hSame.session]
    exact hBalanced.pings
  waits := hSame.waits.trans hBalanced.waits

end SameHandlers

/- A stop cancels the wait, whose handler is still to run. -/
theorem stop_sameHandlers (s : HttpTlsSession) :
    SameHandlers s s.stop := by
  unfold stop
  split
  · exact .refl s
  · refine ⟨rfl, rfl, rfl, ?_, Nat.zero_le _⟩
    simp only [pingHandlers, shutdownSocket, cancelPing,
      Timer.cancel]
    omega

theorem sameHandlers_writeOrder :
    WriteOrder SameHandlers where
  refl := .refl
  trans := .trans
  callback s c := by
    unfold runCallback
    simp only
    split
    · refine .trans ?_ (stop_sameHandlers _)
      exact ⟨rfl, rfl, rfl, rfl, Nat.le_refl _⟩
    · exact ⟨rfl, rfl, rfl, rfl, Nat.le_refl _⟩
  stop := stop_sameHandlers
  buffers := by
    rintro s _ ⟨_, _, _, _, _, _, rfl⟩
    exact ⟨rfl, rfl, rfl, rfl, Nat.le_refl _⟩

theorem write_sameHandlers
    {sends : List Send}
    (hWrite : s.write sends = some s') :
    SameHandlers s s' :=
  sameHandlers_writeOrder.write
    (fun _ => ⟨rfl, rfl, rfl, rfl, Nat.le_refl _⟩) hWrite

/- A closed socket still owes the handlers of its reads. -/
theorem close_sameHandlers
    {sock : Socket}
    (hSock : sock = s.sock ∨ sock = s.sock.close) :
    SameHandlers s { s with sock := sock } := by
  rcases hSock with rfl | rfl
  · exact .refl s
  · refine ⟨rfl, rfl, ?_, rfl, Nat.le_refl _⟩
    simp only [readHandlers, Socket.close]
    omega

end HttpTlsSession

end Network

------------------------------------------------------------
-- Steps
------------------------------------------------------------

namespace Network

namespace HttpTlsSession

variable {s s' : HttpTlsSession}
variable {started : Nat}

/- A read that has ended may be followed by another one. -/
theorem readHandler_balanced
    {ec : ErrorCode}
    {n : Nat}
    {recv : Recv}
    (hHandler : s.readHandler ec n recv = some s')
    (hSettings : s.nghttp2.settings = s.session.toNat)
    (hReads : s.readHandlers + 1 ≤ s.session.toNat)
    (hPings : s.pingHandlers = s.session.toNat + started)
    (hWaits : s.ping.waits ≤ 1) :
    s'.Balanced started := by
  have hBalanced : s.Balanced started :=
    ⟨hSettings, by omega, hPings, hWaits⟩
  have hHeld :
      SameHandlers s (s.hold.upcalls recv.upcalls) := by
    refine .trans ?_
      (sameHandlers_writeOrder.upcalls s.hold recv.upcalls)
    exact ⟨rfl, rfl, rfl, rfl, Nat.le_refl _⟩
  have hUnlock (held : HttpTlsSession) :
      SameHandlers held held.unlock :=
    ⟨rfl, rfl, rfl, rfl, Nat.le_refl _⟩
  cases readHandled_of_some hHandler with
  | nothing _ => exact hBalanced
  | failed _ _ =>
      exact s.stop_sameHandlers.balanced hBalanced
  | refused _ _ _ =>
      exact ((hHeld.trans (stop_sameHandlers _)).trans
        (hUnlock _)).balanced hBalanced
  | ended _ _ hWrite _ =>
      exact (((hHeld.trans (hUnlock _)).trans
        (write_sameHandlers hWrite)).trans
          (stop_sameHandlers _)).balanced hBalanced
  | goesOn _ _ hWrite _ =>
      have hSame :=
        (hHeld.trans (hUnlock _)).trans
          (write_sameHandlers hWrite)
      have hAfter := hSame.balanced hBalanced
      unfold read
      split
      · exact hAfter
      · refine ⟨hAfter.settings, ?_, hAfter.pings,
          hAfter.waits⟩
        have hSame' := hSame.reads
        have hSession := hSame.session
        simp only [readSocket, readHandlers] at hSame' hReads ⊢
        rw [hSession]
        omega

theorem writeHandler_sameHandlers
    {ec : ErrorCode}
    {n : Nat}
    {sends : List Send}
    (hHandler : s.writeHandler ec n sends = some s') :
    SameHandlers s s' := by
  cases writeHandled_of_some hHandler with
  | stopped _ => exact s.stop_sameHandlers
  | cleared _ _ hWrite =>
      refine .trans ?_ (write_sameHandlers hWrite)
      exact ⟨rfl, rfl, rfl, rfl, Nat.le_refl _⟩

/- One more handler is to run, and one wait is pending. -/
theorem startPing_pingHandlers (s : HttpTlsSession) :
    s.startPing.pingHandlers = s.pingHandlers + 1 ∧
      s.startPing.ping.waits = 1 := by
  simp only [startPing, pingHandlers, Timer.cancel, Timer.wait,
    and_true]
  omega

/- Whatever its error code, the handler leaves another one. -/
theorem pingHandler_balanced
    {ec : ErrorCode}
    {sends : List Send}
    (hHandler : s.pingHandler ec sends = some s')
    (hSettings : s.nghttp2.settings = s.session.toNat)
    (hReads : s.readHandlers ≤ s.session.toNat)
    (hPings :
      s.pingHandlers + 1 = s.session.toNat + started) :
    s'.Balanced started := by
  rcases Option.map_eq_some_iff.mp hHandler with
    ⟨written, hWrite, rfl⟩
  have hSubmitted : SameHandlers s (s.submitPing ec) := by
    unfold submitPing
    split <;> exact ⟨rfl, rfl, rfl, rfl, Nat.le_refl _⟩
  have hSame := hSubmitted.trans (write_sameHandlers hWrite)
  have hStart := written.startPing_pingHandlers
  refine ⟨?_, ?_, ?_, by rw [hStart.2]⟩
  · exact hSame.settings.trans
      (hSettings.trans (by rw [← hSame.session]; rfl))
  · refine (Nat.le_of_eq hSame.reads).trans ?_
    exact hReads.trans
      (Nat.le_of_eq (by rw [← hSame.session]; rfl))
  · rw [hStart.1, hSame.pings, hPings, ← hSame.session]
    rfl

theorem submit_sameHandlers
    {arguments : SubmitArguments}
    {submission : Submission}
    {result : ErrorCode × Int}
    (hSubmit :
      s.submit arguments submission = some (s', result)) :
    SameHandlers s s' := by
  rcases submit_cases hSubmit with
    rfl | ⟨request, written, hLocked, rfl⟩
  · exact .refl _
  · have hWritten : SameHandlers s written := by
      rcases writeLocked_cases hLocked with
        ⟨_, rfl⟩ | ⟨_, locked, hWrite, rfl⟩
      · exact ⟨rfl, rfl, rfl, rfl, Nat.le_refl _⟩
      · have hSame := write_sameHandlers hWrite
        exact ⟨hSame.session, hSame.settings, hSame.reads,
          hSame.pings, hSame.waits⟩
    exact ⟨hWritten.session, hWritten.settings,
      hWritten.reads, hWritten.pings, hWritten.waits⟩

theorem invokeOnStart_sameHandlers (s : HttpTlsSession) :
    SameHandlers s s.invokeOnStart := by
  unfold invokeOnStart
  split <;> exact ⟨rfl, rfl, rfl, rfl, Nat.le_refl _⟩

/- The greeting starts the one read and the pings. -/
theorem Attempted.balanced
    {connection : Connection}
    (hAttempt : Attempted s connection s')
    (hBalanced : s.Balanced started) :
    s'.Balanced started := by
  cases hAttempt with
  | ended sock hSock =>
      exact ((close_sameHandlers hSock).trans
        (stop_sameHandlers _)).balanced hBalanced
  | again sock hSock _ =>
      refine ((close_sameHandlers hSock).trans
        (.trans ?_ (invokeOnStart_sameHandlers _))).balanced
          hBalanced
      exact ⟨rfl, rfl, rfl, rfl, Nat.le_refl _⟩
  | @greets sock hSock hFirst written hWrite =>
      have hClosed := close_sameHandlers hSock
      have hWritten := write_sameHandlers hWrite
      have hSession : written.session = true :=
        hWritten.session
      have hReads : written.readHandlers = s.readHandlers :=
        hWritten.reads.trans hClosed.reads
      have hPings : written.pingHandlers = s.pingHandlers :=
        hWritten.pings.trans hClosed.pings
      have hSettings :
          written.nghttp2.settings = s.nghttp2.settings + 1 :=
        hWritten.settings.trans
          (congrArg (· + 1) hClosed.settings)
      have hRead :
          written.read.session = true ∧
            written.read.nghttp2 = written.nghttp2 ∧
            written.read.ping = written.ping ∧
            written.read.readHandlers ≤
              written.readHandlers + 1 := by
        unfold read
        split
        · exact ⟨hSession, rfl, rfl, Nat.le_succ _⟩
        · refine ⟨hSession, rfl, rfl, ?_⟩
          simp only [readSocket, readHandlers]
          omega
      have hStart := written.read.startPing_pingHandlers
      have hBefore := hBalanced
      rcases hBalanced with
        ⟨hSettings₀, hReads₀, hPings₀, _⟩
      rw [hFirst.1] at hSettings₀ hReads₀ hPings₀
      simp only [Bool.toNat_false] at hSettings₀ hReads₀ hPings₀
      apply (invokeOnStart_sameHandlers _).balanced
      have hGreeted :
          written.read.startPing.session = true := hRead.1
      constructor
      · rw [hGreeted]
        change written.read.nghttp2.settings = 1
        rw [hRead.2.1]
        omega
      · rw [hGreeted]
        change written.read.readHandlers ≤ 1
        have hMost := hRead.2.2.2
        omega
      · rw [hGreeted, hStart.1]
        have hSame :
            written.read.pingHandlers =
              written.pingHandlers := by
          unfold pingHandlers
          rw [hRead.2.2.1]
        simp only [Bool.toNat_true]
        omega
      · rw [hStart.2]

/- One read less is under way when its handler runs. -/
theorem readHandler_balanced_of_pending
    {ec : ErrorCode}
    {n reads cancelledReads : Nat}
    {recv : Recv}
    (hPending :
      reads + cancelledReads + 1 = s.readHandlers)
    (hHandler :
      { s with
        sock :=
          { s.sock with
            reads := reads
            cancelledReads := cancelledReads } }.readHandler
          ec n recv = some s')
    (hBalanced : s.Balanced started) :
    s'.Balanced started := by
  refine readHandler_balanced hHandler hBalanced.settings ?_
    hBalanced.pings hBalanced.waits
  have hReads := hBalanced.reads
  simp only [readHandlers] at hPending hReads ⊢
  omega

/- One wait less is to be handled when its handler runs. -/
theorem pingHandler_balanced_of_pending
    {ec : ErrorCode}
    {sends : List Send}
    {ping : Timer}
    (hPending :
      ping.waits + ping.cancelled + 1 = s.pingHandlers)
    (hHandler :
      { s with ping := ping }.pingHandler ec sends = some s')
    (hBalanced : s.Balanced started) :
    s'.Balanced started := by
  refine pingHandler_balanced hHandler hBalanced.settings
    hBalanced.reads ?_
  have hPings := hBalanced.pings
  simp only [pingHandlers] at hPending hPings ⊢
  omega

theorem writeHandler_balanced
    {ec : ErrorCode}
    {n : Nat}
    {sends : List Send}
    (hHandler : s.writeHandler ec n sends = some s')
    (hBalanced : s.Balanced started) :
    s'.Balanced started :=
  (writeHandler_sameHandlers hHandler).balanced hBalanced

theorem step_balanced
    {event : SessionEvent}
    (hBalanced : s.Balanced started)
    (hStep : s.step event = some s') :
    s'.Balanced
      (started +
        (QueuedEvent.session event).startsPing.toNat) := by
  cases event with
  | startResolve connection =>
      exact (step_attempted hStep).balanced hBalanced
  | readDone ec n recv =>
      simp only [step] at hStep
      split at hStep
      · exact Option.some.inj hStep ▸ hBalanced
      · rename_i reads hReads
        refine readHandler_balanced_of_pending ?_ hStep
          hBalanced
        unfold readHandlers
        omega
  | readCancelled recv =>
      simp only [step] at hStep
      split at hStep
      · exact Option.some.inj hStep ▸ hBalanced
      · rename_i reads hReads
        refine readHandler_balanced_of_pending ?_ hStep
          hBalanced
        unfold readHandlers
        omega
  | writeDone ec n sends =>
      simp only [step] at hStep
      split at hStep
      · exact Option.some.inj hStep ▸ hBalanced
      · refine writeHandler_balanced hStep ?_
        exact ⟨hBalanced.settings, hBalanced.reads,
          hBalanced.pings, hBalanced.waits⟩
  | writeCancelled sends =>
      simp only [step] at hStep
      split at hStep
      · exact Option.some.inj hStep ▸ hBalanced
      · refine writeHandler_balanced hStep ?_
        exact ⟨hBalanced.settings, hBalanced.reads,
          hBalanced.pings, hBalanced.waits⟩
  | pingExpired sends =>
      simp only [step] at hStep
      split at hStep
      · exact Option.some.inj hStep ▸ hBalanced
      · rename_i waits hWaits
        refine pingHandler_balanced_of_pending ?_ hStep
          hBalanced
        simp only [pingHandlers]
        omega
  | pingCancelled sends =>
      simp only [step] at hStep
      split at hStep
      · exact Option.some.inj hStep ▸ hBalanced
      · rename_i cancelled hCancelled
        refine pingHandler_balanced_of_pending ?_ hStep
          hBalanced
        simp only [pingHandlers]
        omega
  | write sends =>
      exact (write_sameHandlers hStep).balanced hBalanced
  | submit arguments submission =>
      rcases Option.map_eq_some_iff.mp hStep with
        ⟨⟨_, result⟩, hSubmit, rfl⟩
      exact (submit_sameHandlers hSubmit).balanced hBalanced
  | startPing =>
      rw [← Option.some.inj hStep]
      have hStart := s.startPing_pingHandlers
      refine ⟨hBalanced.settings, hBalanced.reads, ?_,
        by rw [hStart.2]⟩
      rw [hStart.1, hBalanced.pings]
      rfl
  | cancelPing =>
      rw [← Option.some.inj hStep]
      refine SameHandlers.balanced ?_ hBalanced
      refine ⟨rfl, rfl, rfl, ?_, Nat.zero_le _⟩
      simp only [pingHandlers, cancelPing, Timer.cancel]
      omega
  | stop =>
      rw [← Option.some.inj hStep]
      exact s.stop_sameHandlers.balanced hBalanced

theorem stepQueued_balanced
    {event : QueuedEvent}
    (hBalanced : s.Balanced started)
    (hStep : s.stepQueued event = some s') :
    s'.Balanced (started + event.startsPing.toNat) := by
  cases event with
  | session event => exact step_balanced hBalanced hStep
  | read ec n recv =>
      simp only [stepQueued] at hStep
      split at hStep
      · exact Option.some.inj hStep ▸ hBalanced
      · rename_i reads hReads
        refine readHandler_balanced_of_pending ?_ hStep
          hBalanced
        unfold readHandlers
        omega
  | write ec n sends =>
      simp only [stepQueued] at hStep
      split at hStep
      · exact Option.some.inj hStep ▸ hBalanced
      · refine writeHandler_balanced hStep ?_
        exact ⟨hBalanced.settings, hBalanced.reads,
          hBalanced.pings, hBalanced.waits⟩
  | ping ec sends =>
      simp only [stepQueued] at hStep
      split at hStep
      · exact Option.some.inj hStep ▸ hBalanced
      · rename_i cancelled hCancelled
        refine pingHandler_balanced_of_pending ?_ hStep
          hBalanced
        simp only [pingHandlers]
        omega

end HttpTlsSession

end Network

------------------------------------------------------------
-- Runs
------------------------------------------------------------

namespace Network

namespace HttpTlsSession

variable {s s' : HttpTlsSession}
variable {events : List QueuedEvent}

theorem execQueued_balanced
    {started : Nat}
    (hBalanced : s.Balanced started)
    (hRun :
      Transition.exec stepQueued s events = some s') :
    s'.Balanced (started + events.countP (·.startsPing)) := by
  induction events generalizing s started with
  | nil => exact Option.some.inj hRun ▸ hBalanced
  | cons event events ih =>
      rcases Transition.exec_cons_eq_some_iff.mp hRun with
        ⟨next, hStep, hRest⟩
      have hLater :=
        ih (stepQueued_balanced hBalanced hStep) hRest
      have hCount :
          started + (event :: events).countP (·.startsPing) =
            started + event.startsPing.toNat +
              events.countP (·.startsPing) := by
        rw [List.countP_cons]
        cases event.startsPing <;>
          simp only [if_true, Bool.false_eq_true, if_false,
            Bool.toNat_true, Bool.toNat_false] <;> omega
      rw [hCount]
      exact hLater

theorem balanced_run
    (hFresh : s.Fresh)
    (hRun :
      Transition.exec stepQueued s events = some s') :
    s'.Balanced (events.countP (·.startsPing)) := by
  have hStart : s.Balanced 0 := by
    constructor <;>
      simp [readHandlers, pingHandlers, hFresh.session,
        hFresh.nghttp2, hFresh.sock, hFresh.ping]
  have hEnd := execQueued_balanced hStart hRun
  rwa [Nat.zero_add] at hEnd

/-
  However often a session connects, it submits its settings
  once: with its nghttp2 session, which is never set up again.
-/
theorem greets_once_run
    (hFresh : s.Fresh)
    (hRun :
      Transition.exec stepQueued s events = some s') :
    s'.nghttp2.settings = if s'.session then 1 else 0 := by
  rw [(balanced_run hFresh hRun).settings]
  cases s'.session <;> rfl

/- A session that connects, is stopped and connects again. -/
def reconnectedRun : List QueuedEvent :=
  [.session (.startResolve h2Connection), .session .stop,
    .session (.startResolve h2Connection),
    .session .startPing, .session (.pingCancelled [])]

theorem reconnectedRun_returns :
    ∃ s',
      Transition.exec stepQueued
          (create (ascii "a") (ascii "443") zeroGarbage)
          reconnectedRun = some s' :=
  Option.isSome_iff_exists.mp rfl

theorem greets_once_run_reconnected :
    ∃ s',
      Transition.exec stepQueued
          (create (ascii "a") (ascii "443") zeroGarbage)
          reconnectedRun = some s' ∧
        s'.nghttp2.settings = if s'.session then 1 else 0 := by
  rcases reconnectedRun_returns with ⟨s', hRun⟩
  exact ⟨s', hRun, greets_once_run (create_fresh _ _ _) hRun⟩

/-
  Two reads are never under way at once, so that no two share
  the read buffer, and none is before nghttp2 is set up.
-/
theorem single_read_run
    (hFresh : s.Fresh)
    (hRun :
      Transition.exec stepQueued s events = some s') :
    s'.readHandlers ≤ if s'.session then 1 else 0 := by
  refine (balanced_run hFresh hRun).reads.trans ?_
  cases s'.session <;> exact Nat.le_refl _

theorem single_read_run_reconnected :
    ∃ s',
      Transition.exec stepQueued
          (create (ascii "a") (ascii "443") zeroGarbage)
          reconnectedRun = some s' ∧
        s'.readHandlers ≤ if s'.session then 1 else 0 := by
  rcases reconnectedRun_returns with ⟨s', hRun⟩
  exact ⟨s', hRun, single_read_run (create_fresh _ _ _) hRun⟩

/-
  At most one wait for a ping is pending.  But the handlers
  that are to run are as many as the times that the pings have
  been started, by the greeting or from outside: one that has
  been cancelled is not gone.
-/
theorem pingHandlers_run
    (hFresh : s.Fresh)
    (hRun :
      Transition.exec stepQueued s events = some s') :
    s'.ping.waits ≤ 1 ∧
      s'.pingHandlers =
        (if s'.session then 1 else 0) +
          events.countP (·.startsPing) := by
  have hBalanced := balanced_run hFresh hRun
  refine ⟨hBalanced.waits, ?_⟩
  rw [hBalanced.pings]
  cases s'.session <;> rfl

theorem pingHandlers_run_reconnected :
    ∃ s',
      Transition.exec stepQueued
          (create (ascii "a") (ascii "443") zeroGarbage)
          reconnectedRun = some s' ∧
        s'.ping.waits ≤ 1 ∧
          s'.pingHandlers =
            (if s'.session then 1 else 0) +
              reconnectedRun.countP (·.startsPing) := by
  rcases reconnectedRun_returns with ⟨s', hRun⟩
  exact ⟨s', hRun,
    pingHandlers_run (create_fresh _ _ _) hRun⟩

end HttpTlsSession

end Network
