import XMLHttpRequest.Session.System

/-
  What the operations of a session leave alone.

  Key definitions include:
    * `Network.HttpTlsSession.UpcallOrder`
    * `Network.HttpTlsSession.WriteOrder`
    * `Network.HttpTlsSession.Undisturbed`
    * `Network.HttpTlsSession.Kept`
    * `Network.HttpTlsSession.WriteHandled`
    * `Network.HttpTlsSession.ReadHandled`
    * `Network.HttpTlsSession.ResolveStarted`
    * `Network.HttpTlsSession.Handled`

  Key theorems include:
    * `Network.HttpTlsSession.UpcallOrder.upcalls`
    * `Network.HttpTlsSession.WriteOrder.write`
    * `Network.HttpTlsSession.upcalls_undisturbed`
    * `Network.HttpTlsSession.write_kept`
    * `Network.HttpTlsSession.write_cases`
    * `Network.HttpTlsSession.readHandler_cases`
    * `Network.HttpTlsSession.onSocketConnected_eq`
    * `Network.HttpTlsSession.startResolve_of_stopped`
    * `Network.HttpTlsSession.step_handled`
    * `Network.HttpTlsSession.step_kept`
-/

------------------------------------------------------------
-- Orders of Sessions
------------------------------------------------------------

namespace Network

namespace HttpTlsSession

/- A preorder that a callback and a stop of nghttp2 keep. -/
structure UpcallOrder
    (R : HttpTlsSession → HttpTlsSession → Prop) : Prop where
  refl : ∀ s, R s s
  trans : ∀ {s s' s''}, R s s' → R s' s'' → R s s''
  callback : ∀ s c, R s (s.runCallback c)
  stop : ∀ s, R s s.stop

/- The bytes to be written have changed, and the mutex. -/
def Buffers (s s' : HttpTlsSession) : Prop :=
  ∃ wb wblen overrun dataPending insideCb sent,
    s' =
      { s with
        wb := wb
        wblen := wblen
        overrun := overrun
        dataPending := dataPending
        insideCb := insideCb
        nghttp2 := { s.nghttp2 with sent := sent } }

/- One that what `write` does with the bytes keeps, too. -/
structure WriteOrder
    (R : HttpTlsSession → HttpTlsSession → Prop) : Prop
    extends UpcallOrder R where
  buffers : ∀ {s s'}, Buffers s s' → R s s'

variable {R : HttpTlsSession → HttpTlsSession → Prop}

theorem UpcallOrder.upcalls
    (hOrder : UpcallOrder R)
    (s : HttpTlsSession)
    (upcalls : List Upcall) :
    R s (s.upcalls upcalls) := by
  induction upcalls generalizing s with
  | nil => exact hOrder.refl s
  | cons upcall upcalls ih =>
      refine hOrder.trans ?_ (ih (s.upcall upcall))
      cases upcall with
      | callback c => exact hOrder.callback s c
      | stop => exact hOrder.stop s

theorem buffers_stage (s : HttpTlsSession) (data : Bytes) :
    Buffers s ((s.receiveChunk data).stage data) :=
  ⟨_, _, _, s.dataPending, s.insideCb, _, rfl⟩

theorem buffers_park (s : HttpTlsSession) (data : Bytes) :
    Buffers s
      { s.receiveChunk data with
        dataPending := some data } :=
  ⟨s.wb, s.wblen, s.overrun, _, s.insideCb, _, rfl⟩

theorem buffers_unlock (s : HttpTlsSession) :
    Buffers s s.unlock :=
  ⟨s.wb, s.wblen, s.overrun, s.dataPending, _, _, rfl⟩

theorem buffers_stagePending (s : HttpTlsSession) :
    Buffers s s.stagePending.hold := by
  unfold stagePending
  split
  · exact ⟨_, _, _, _, _, s.nghttp2.sent, rfl⟩
  · exact ⟨s.wb, s.wblen, s.overrun, s.dataPending, _, _,
      rfl⟩

/- The loop of `write` keeps such an order. -/
theorem WriteOrder.sendLoop
    (hOrder : WriteOrder R)
    (s : HttpTlsSession)
    (sends : List Send) :
    R s (s.sendLoop sends).1 := by
  induction sends generalizing s with
  | nil => exact hOrder.refl s
  | cons send sends ih =>
      have hUpcalls := hOrder.upcalls s send.upcalls
      simp only [HttpTlsSession.sendLoop]
      split
      · exact hOrder.trans hUpcalls (hOrder.stop _)
      · exact hUpcalls
      · split
        · exact hOrder.trans hUpcalls
            (hOrder.buffers (buffers_park _ _))
        · refine hOrder.trans hUpcalls
            (hOrder.trans ?_ (ih _))
          exact hOrder.buffers (buffers_stage _ _)

end HttpTlsSession

end Network

------------------------------------------------------------
-- Upcalls
------------------------------------------------------------

namespace Network

namespace HttpTlsSession

/-
  Nothing has changed but the stream map, the log and, by a
  stop, the flags and the timer that a stop sets.
-/
structure Undisturbed (s s' : HttpTlsSession) : Prop where
  session : s'.session = s.session
  wb : s'.wb = s.wb
  wblen : s'.wblen = s.wblen
  writing : s'.writing = s.writing
  insideCb : s'.insideCb = s.insideCb
  dataPending : s'.dataPending = s.dataPending
  host : s'.host = s.host
  port : s'.port = s.port
  sock : s'.sock = s.sock
  nghttp2 : s'.nghttp2 = s.nghttp2
  overrun : s'.overrun = s.overrun
  stopped : s.stopped = true → s'.stopped = true

namespace Undisturbed

variable {s s' s'' : HttpTlsSession}

protected theorem refl (s : HttpTlsSession) :
    Undisturbed s s := by
  constructor <;> first | rfl | exact id

protected theorem trans
    (hFirst : Undisturbed s s')
    (hSecond : Undisturbed s' s'') :
    Undisturbed s s'' where
  session := hSecond.session.trans hFirst.session
  wb := hSecond.wb.trans hFirst.wb
  wblen := hSecond.wblen.trans hFirst.wblen
  writing := hSecond.writing.trans hFirst.writing
  insideCb := hSecond.insideCb.trans hFirst.insideCb
  dataPending :=
    hSecond.dataPending.trans hFirst.dataPending
  host := hSecond.host.trans hFirst.host
  port := hSecond.port.trans hFirst.port
  sock := hSecond.sock.trans hFirst.sock
  nghttp2 := hSecond.nghttp2.trans hFirst.nghttp2
  overrun := hSecond.overrun.trans hFirst.overrun
  stopped hStopped :=
    hSecond.stopped (hFirst.stopped hStopped)

end Undisturbed

variable (s : HttpTlsSession)

theorem stop_undisturbed : Undisturbed s s.stop := by
  unfold stop
  split
  · exact .refl s
  · constructor <;> first | rfl | exact fun _ => rfl

@[simp] theorem stop_stopped : s.stop.stopped = true := by
  unfold stop
  split
  · assumption
  · rfl

@[simp] theorem stop_log : s.stop.log = s.log := by
  unfold stop
  split <;> rfl

@[simp] theorem stop_toCallbackState :
    s.stop.toCallbackState = s.toCallbackState := by
  unfold stop
  split <;> rfl

theorem runCallback_undisturbed (c : Callback) :
    Undisturbed s (s.runCallback c) := by
  unfold runCallback
  simp only
  split
  · refine .trans ?_ (stop_undisturbed _)
    constructor <;> first | rfl | exact id
  · constructor <;> first | rfl | exact id

theorem runCallback_log (c : Callback) :
    (s.runCallback c).log =
      s.log ++ (s.toCallbackState.apply c).2.map .call := by
  unfold runCallback
  simp only
  split
  · rw [stop_log]
  · rfl

theorem runCallback_toCallbackState (c : Callback) :
    (s.runCallback c).toCallbackState =
      (s.toCallbackState.apply c).1 := by
  unfold runCallback
  simp only
  split
  · rw [stop_toCallbackState]
  · rfl

theorem undisturbed_upcallOrder :
    UpcallOrder Undisturbed where
  refl := .refl
  trans := .trans
  callback := runCallback_undisturbed
  stop := stop_undisturbed

theorem upcalls_undisturbed (upcalls : List Upcall) :
    Undisturbed s (s.upcalls upcalls) :=
  undisturbed_upcallOrder.upcalls s upcalls

end HttpTlsSession

end Network

------------------------------------------------------------
-- Writes
------------------------------------------------------------

namespace Network

namespace HttpTlsSession

/-
  What a write leaves alone: all but the staged bytes and the
  writes under way, and a stop.
-/
structure Kept (s s' : HttpTlsSession) : Prop where
  session : s'.session = s.session
  host : s'.host = s.host
  port : s'.port = s.port
  reads : s'.sock.reads = s.sock.reads
  cancelledReads :
    s'.sock.cancelledReads = s.sock.cancelledReads
  settings : s'.nghttp2.settings = s.nghttp2.settings
  stopped : s.stopped = true → s'.stopped = true

namespace Kept

variable {s s' s'' : HttpTlsSession}

protected theorem refl (s : HttpTlsSession) : Kept s s := by
  constructor <;> first | rfl | exact id

protected theorem trans
    (hFirst : Kept s s')
    (hSecond : Kept s' s'') :
    Kept s s'' where
  session := hSecond.session.trans hFirst.session
  host := hSecond.host.trans hFirst.host
  port := hSecond.port.trans hFirst.port
  reads := hSecond.reads.trans hFirst.reads
  cancelledReads :=
    hSecond.cancelledReads.trans hFirst.cancelledReads
  settings := hSecond.settings.trans hFirst.settings
  stopped hStopped :=
    hSecond.stopped (hFirst.stopped hStopped)

end Kept

theorem Undisturbed.kept
    {s s' : HttpTlsSession}
    (hUndisturbed : Undisturbed s s') :
    Kept s s' where
  session := hUndisturbed.session
  host := hUndisturbed.host
  port := hUndisturbed.port
  reads := by rw [hUndisturbed.sock]
  cancelledReads := by rw [hUndisturbed.sock]
  settings := by rw [hUndisturbed.nghttp2]
  stopped := hUndisturbed.stopped

variable (s : HttpTlsSession)

@[simp] theorem stagePending_insideCb :
    s.stagePending.insideCb = s.insideCb := by
  unfold stagePending
  split <;> rfl

theorem kept_writeOrder : WriteOrder Kept where
  refl := .refl
  trans := .trans
  callback s c := (s.runCallback_undisturbed c).kept
  stop s := s.stop_undisturbed.kept
  buffers := by
    rintro s _ ⟨_, _, _, _, _, _, rfl⟩
    constructor <;> first | rfl | exact id

/-
  A session whose `write` has asked nghttp2 for what is to be
  sent; `false` when nghttp2 was out of memory.
-/
def pumped (sends : List Send) : HttpTlsSession × Bool :=
  s.stagePending.hold.sendLoop sends

/- What `write` does on a running, idle session. -/
theorem write_of_idle
    (hRunning : s.stopped = false)
    (hIdle : s.writing = false)
    (sends : List Send) :
    s.write sends =
      if s.insideCb then none
      else if (s.pumped sends).2 = false ∨
          (s.pumped sends).1.wblen = 0 then
        some (s.pumped sends).1.unlock
      else
        some
          { (s.pumped sends).1.unlock with
            writing := true }.writeSocket := by
  simp only [write, hRunning, hIdle, Bool.false_eq_true,
    if_false, lock, stagePending_insideCb]
  split
  · rfl
  · rw [Option.map_some, ← pumped]
    by_cases hMore : (s.pumped sends).2 = true
    · by_cases hEmpty : (s.pumped sends).1.wblen = 0 <;>
        simp [hMore, hEmpty, unlock]
    · simp [hMore]

theorem write_of_stopped
    (hStopped : s.stopped = true)
    (sends : List Send) :
    s.write sends = some s := by
  simp [write, hStopped]

theorem write_of_writing
    (hWriting : s.writing = true)
    (sends : List Send) :
    s.write sends = some s := by
  simp [write, hWriting]

/- All that a returning `write` can do. -/
theorem write_cases
    {sends : List Send}
    {s' : HttpTlsSession}
    (hWrite : s.write sends = some s') :
    ((s.stopped = true ∨ s.writing = true) ∧ s' = s) ∨
    (s.stopped = false ∧ s.writing = false ∧
      s.insideCb = false ∧
      (((s.pumped sends).2 = false ∨
          (s.pumped sends).1.wblen = 0) ∧
        s' = (s.pumped sends).1.unlock ∨
      ((s.pumped sends).2 = true ∧
          (s.pumped sends).1.wblen ≠ 0) ∧
        s' =
          { (s.pumped sends).1.unlock with
            writing := true }.writeSocket)) := by
  cases hStopped : s.stopped with
  | true =>
      rw [s.write_of_stopped hStopped] at hWrite
      exact .inl ⟨.inl rfl, (Option.some.inj hWrite).symm⟩
  | false =>
      cases hWriting : s.writing with
      | true =>
          rw [s.write_of_writing hWriting] at hWrite
          exact .inl
            ⟨.inr rfl, (Option.some.inj hWrite).symm⟩
      | false =>
          rw [s.write_of_idle hStopped hWriting] at hWrite
          split at hWrite
          · cases hWrite
          · rename_i hFree
            refine .inr
              ⟨rfl, rfl, by simpa using hFree, ?_⟩
            split at hWrite
            · rename_i hEnd
              exact .inl
                ⟨hEnd, (Option.some.inj hWrite).symm⟩
            · rename_i hGoOn
              have hGoOn' := not_or.mp hGoOn
              exact .inr
                ⟨⟨by simpa using hGoOn'.1, hGoOn'.2⟩,
                  (Option.some.inj hWrite).symm⟩

/- So does `write`, if the start of a write keeps it. -/
theorem WriteOrder.pumped
    {R : HttpTlsSession → HttpTlsSession → Prop}
    (hOrder : WriteOrder R)
    (s : HttpTlsSession)
    (sends : List Send) :
    R s (s.pumped sends).1 :=
  hOrder.trans (hOrder.buffers s.buffers_stagePending)
    (hOrder.sendLoop _ sends)

theorem WriteOrder.write
    {R : HttpTlsSession → HttpTlsSession → Prop}
    (hOrder : WriteOrder R)
    (hSocket :
      ∀ s, R s { s with writing := true }.writeSocket)
    {sends : List Send}
    {s s' : HttpTlsSession}
    (hWrite : s.write sends = some s') :
    R s s' := by
  have hUnlocked :
      R s (s.pumped sends).1.unlock :=
    hOrder.trans (hOrder.pumped s sends)
      (hOrder.buffers (buffers_unlock _))
  rcases s.write_cases hWrite with
    ⟨_, rfl⟩ | ⟨_, _, _, ⟨_, rfl⟩ | ⟨_, rfl⟩⟩
  · exact hOrder.refl _
  · exact hUnlocked
  · exact hOrder.trans hUnlocked (hSocket _)

/- Before its end `write` leaves the socket alone. -/
theorem pumped_sock (sends : List Send) :
    (s.pumped sends).1.sock = s.sock ∧
      (s.pumped sends).1.writing = s.writing := by
  have hOrder :
      WriteOrder fun s s' =>
        s'.sock = s.sock ∧ s'.writing = s.writing :=
    { refl := fun _ => ⟨rfl, rfl⟩
      trans := fun hFirst hSecond =>
        ⟨hSecond.1.trans hFirst.1,
          hSecond.2.trans hFirst.2⟩
      callback := fun s c =>
        ⟨(s.runCallback_undisturbed c).sock,
          (s.runCallback_undisturbed c).writing⟩
      stop := fun s =>
        ⟨s.stop_undisturbed.sock, s.stop_undisturbed.writing⟩
      buffers := by
        rintro s _ ⟨_, _, _, _, _, _, rfl⟩
        exact ⟨rfl, rfl⟩ }
  exact hOrder.pumped s sends

theorem write_kept
    {sends : List Send}
    {s' : HttpTlsSession}
    (hWrite : s.write sends = some s') :
    Kept s s' := by
  refine kept_writeOrder.write ?_ hWrite
  intro s
  constructor <;> first | rfl | exact id

/- A write returns unless it waits for its own lock. -/
theorem write_isSome_iff (sends : List Send) :
    (s.write sends).isSome = true ↔
      s.stopped = true ∨ s.writing = true ∨
        s.insideCb = false := by
  cases hStopped : s.stopped with
  | true => simp [s.write_of_stopped hStopped]
  | false =>
      cases hWriting : s.writing with
      | true => simp [s.write_of_writing hWriting]
      | false =>
          rw [s.write_of_idle hStopped hWriting]
          cases s.insideCb with
          | true => simp
          | false =>
              simp only [Bool.false_eq_true, if_false]
              split <;> simp

/- A write leaves the lock as it found it. -/
theorem write_insideCb
    {sends : List Send}
    {s' : HttpTlsSession}
    (hWrite : s.write sends = some s') :
    s'.insideCb = s.insideCb := by
  rcases s.write_cases hWrite with
    ⟨_, rfl⟩ | ⟨_, _, hFree, ⟨_, rfl⟩ | ⟨_, rfl⟩⟩
  · rfl
  · exact hFree.symm
  · exact hFree.symm

end HttpTlsSession

end Network

------------------------------------------------------------
-- Handlers
------------------------------------------------------------

namespace Network

namespace HttpTlsSession

variable {s s' : HttpTlsSession}

/- All that a returning write handler can do. -/
inductive WriteHandled
    (s : HttpTlsSession)
    (ec : ErrorCode)
    (sends : List Send) : HttpTlsSession → Prop
  | stopped
      (hEnds : ec.failed = true ∨ s.zeroStreamClosed = true) :
      WriteHandled s ec sends s.stop
  | cleared
      {s' : HttpTlsSession}
      (hSuccess : ec.failed = false)
      (hOpen : s.zeroStreamClosed = false)
      (hWrite : s.clearBuffer.write sends = some s') :
      WriteHandled s ec sends s'

theorem writeHandled_of_some
    {ec : ErrorCode}
    {n : Nat}
    {sends : List Send}
    (hHandler : s.writeHandler ec n sends = some s') :
    WriteHandled s ec sends s' := by
  unfold writeHandler at hHandler
  split at hHandler
  · rename_i hFailed
    rw [← Option.some.inj hHandler]
    exact .stopped (.inl hFailed)
  · rename_i hSuccess
    split at hHandler
    · rename_i hClosed
      rw [← Option.some.inj hHandler]
      exact .stopped (.inr hClosed)
    · rename_i hOpen
      exact .cleared (by simpa using hSuccess)
        (by simpa using hOpen) hHandler

/-
  All that a returning read handler can do, the calls of
  nghttp2 made under the lock.
-/
inductive ReadHandled
    (s : HttpTlsSession)
    (ec : ErrorCode)
    (n : Nat)
    (recv : Recv) : HttpTlsSession → Prop
  | nothing
      (hZero : n = 0) :
      ReadHandled s ec n recv s
  | failed
      (hSome : n ≠ 0)
      (hFailed : ec.failed = true) :
      ReadHandled s ec n recv s.stop
  | refused
      (hSome : n ≠ 0)
      (hFree : s.insideCb = false)
      (hRefused : recv.rv ≠ n) :
      ReadHandled s ec n recv
        (s.hold.upcalls recv.upcalls).stop.unlock
  | ended
      {written : HttpTlsSession}
      (hSome : n ≠ 0)
      (hFree : s.insideCb = false)
      (hWrite :
        (s.hold.upcalls recv.upcalls).unlock.write
          recv.sends = some written)
      (hEnded : written.shouldStop recv = true) :
      ReadHandled s ec n recv written.stop
  | goesOn
      {written : HttpTlsSession}
      (hSome : n ≠ 0)
      (hFree : s.insideCb = false)
      (hWrite :
        (s.hold.upcalls recv.upcalls).unlock.write
          recv.sends = some written)
      (hGoesOn : written.shouldStop recv = false) :
      ReadHandled s ec n recv written.read

theorem readHandled_of_some
    {ec : ErrorCode}
    {n : Nat}
    {recv : Recv}
    (hHandler : s.readHandler ec n recv = some s') :
    ReadHandled s ec n recv s' := by
  unfold readHandler at hHandler
  split at hHandler
  · rename_i hZero
    rw [← Option.some.inj hHandler]
    exact .nothing hZero
  · rename_i hSome
    split at hHandler
    · rename_i hFailed
      rw [← Option.some.inj hHandler]
      exact .failed hSome hFailed
    · rcases Option.bind_eq_some_iff.mp hHandler with
        ⟨locked, hLock, hRest⟩
      unfold lock at hLock
      split at hLock
      · cases hLock
      · rename_i hHeld
        have hFree : s.insideCb = false := by
          simpa using hHeld
        rw [← Option.some.inj hLock] at hRest
        simp only at hRest
        split at hRest
        · rename_i hRefused
          rw [← Option.some.inj hRest]
          exact .refused hSome hFree hRefused
        · rcases Option.map_eq_some_iff.mp hRest with
            ⟨written, hWrite, rfl⟩
          split
          · rename_i hEnded
            exact .ended hSome hFree hWrite hEnded
          · rename_i hGoesOn
            exact .goesOn hSome hFree hWrite
              (by simpa using hGoesOn)

theorem writeHandler_kept
    {ec : ErrorCode}
    {n : Nat}
    {sends : List Send}
    (hHandler : s.writeHandler ec n sends = some s') :
    Kept s s' := by
  cases writeHandled_of_some hHandler with
  | stopped _ => exact s.stop_undisturbed.kept
  | cleared _ _ hWrite =>
      refine .trans ?_ (write_kept _ hWrite)
      constructor <;> first | rfl | exact id

theorem pingHandler_kept
    {ec : ErrorCode}
    {sends : List Send}
    (hHandler : s.pingHandler ec sends = some s') :
    Kept s s' := by
  have hSubmitted : Kept s (s.submitPing ec) := by
    unfold submitPing
    split <;> constructor <;> first | rfl | exact id
  rcases Option.map_eq_some_iff.mp hHandler with
    ⟨written, hWrite, rfl⟩
  apply (hSubmitted.trans (write_kept _ hWrite)).trans
  constructor <;> first | rfl | exact id

theorem writeLocked_cases
    {sends : List Send}
    (hLocked : s.writeLocked sends = some s') :
    (s.insideCb = true ∧ s' = s) ∨
    (s.insideCb = false ∧
      ∃ written, s.hold.write sends = some written ∧
        s' = written.unlock) := by
  unfold writeLocked at hLocked
  split at hLocked
  · rename_i hHeld
    exact .inl ⟨hHeld, (Option.some.inj hLocked).symm⟩
  · rename_i hFree
    rcases Option.map_eq_some_iff.mp hLocked with
      ⟨written, hWrite, hSame⟩
    exact .inr
      ⟨by simpa using hFree, written, hWrite, hSame.symm⟩

/- All that a returning `submit` can do. -/
theorem submit_cases
    {arguments : SubmitArguments}
    {submission : Submission}
    {result : ErrorCode × Int}
    (hSubmit :
      s.submit arguments submission = some (s', result)) :
    s' = s ∨
    ∃ request written,
      (s.receiveRequest request).writeLocked
          submission.sends = some written ∧
        s' = written.registerStream
          submission.assignedId := by
  unfold submit at hSubmit
  split at hSubmit
  · cases hSubmit
    exact .inl rfl
  · split at hSubmit
    · cases hSubmit
      exact .inl rfl
    · split at hSubmit
      · cases hSubmit
        exact .inl rfl
      · rcases Option.map_eq_some_iff.mp hSubmit with
          ⟨written, hLocked, hSame⟩
        cases hSame
        exact .inr ⟨_, written, hLocked, rfl⟩

theorem writeLocked_kept
    {sends : List Send}
    (hLocked : s.writeLocked sends = some s') :
    Kept s s' := by
  rcases writeLocked_cases hLocked with
    ⟨_, rfl⟩ | ⟨_, written, hWrite, rfl⟩
  · exact .refl _
  · have hHold : Kept s s.hold := by
      constructor <;> first | rfl | exact id
    apply (hHold.trans (write_kept _ hWrite)).trans
    constructor <;> first | rfl | exact id

theorem submit_kept
    {arguments : SubmitArguments}
    {submission : Submission}
    {result : ErrorCode × Int}
    (hSubmit :
      s.submit arguments submission = some (s', result)) :
    Kept s s' := by
  rcases submit_cases hSubmit with
    rfl | ⟨request, written, hLocked, rfl⟩
  · exact .refl _
  · have hRequest : Kept s (s.receiveRequest request) := by
      constructor <;> first | rfl | exact id
    refine (hRequest.trans (writeLocked_kept hLocked)).trans
      ?_
    constructor <;> first | rfl | exact id

/-
  All that a returning read handler can do: without bytes
  nothing, else a read follows unless the session is stopped.
-/
theorem readHandler_cases
    {ec : ErrorCode}
    {n : Nat}
    {recv : Recv}
    (hHandler : s.readHandler ec n recv = some s') :
    (n = 0 ∧ s' = s) ∨
    (n ≠ 0 ∧
      ∃ kept, Kept s kept ∧
        (kept.stopped = true ∧ s' = kept ∨
          kept.stopped = false ∧ s' = kept.readSocket)) := by
  have hHeld : Kept s (s.hold.upcalls recv.upcalls) := by
    refine .trans ?_ (upcalls_undisturbed _ _).kept
    constructor <;> first | rfl | exact id
  have hUnlocked (held : HttpTlsSession) :
      Kept held held.unlock := by
    constructor <;> first | rfl | exact id
  cases readHandled_of_some hHandler with
  | nothing hZero => exact .inl ⟨hZero, rfl⟩
  | failed hSome =>
      exact .inr ⟨hSome, s.stop, s.stop_undisturbed.kept,
        .inl ⟨s.stop_stopped, rfl⟩⟩
  | refused hSome =>
      have hStopped := hHeld.trans (stop_undisturbed _).kept
      exact .inr ⟨hSome, _, hStopped.trans (hUnlocked _),
        .inl ⟨stop_stopped _, rfl⟩⟩
  | ended hSome _ hWrite =>
      have hWritten :=
        (hHeld.trans (hUnlocked _)).trans
          (write_kept _ hWrite)
      exact .inr ⟨hSome, _,
        hWritten.trans (stop_undisturbed _).kept,
        .inl ⟨stop_stopped _, rfl⟩⟩
  | @goesOn written hSome _ hWrite =>
      have hWritten :=
        (hHeld.trans (hUnlocked _)).trans
          (write_kept _ hWrite)
      refine .inr ⟨hSome, written, hWritten, ?_⟩
      unfold read
      split
      · rename_i hStopped
        exact .inl ⟨hStopped, rfl⟩
      · rename_i hRunning
        exact .inr ⟨by simpa using hRunning, rfl⟩

end HttpTlsSession

end Network

------------------------------------------------------------
-- Connecting
------------------------------------------------------------

namespace Network

/- Resolving, connecting and the handshake all succeed. -/
def Connection.succeeds (connection : Connection) : Bool :=
  ! connection.resolve.failed &&
    ! connection.connect.failed &&
    ! connection.handshake.failed

namespace HttpTlsSession

variable (s : HttpTlsSession)

/- A session that has set up nghttp2 and greets its peer. -/
def greeting : HttpTlsSession :=
  { s with
    stopped := false
    session := true }.sendClientConnectionHeader

/- Only the first setup of nghttp2 goes on. -/
theorem onSocketConnected_eq (connection : Connection) :
    s.onSocketConnected connection =
      if s.session = false ∧ connection.clientNew = true then
        (s.greeting.write connection.sends).map
          fun s => s.read.startPing
      else some { s with stopped := false } := by
  unfold onSocketConnected setupSession greeting
  cases s.session with
  | true => simp
  | false => cases connection.clientNew <;> simp

/- A stopped session whose connection attempt fails stays. -/
theorem startResolve_of_stopped
    (hStopped : s.stopped = true)
    (connection : Connection) :
    (s.startResolve connection).map (·.1) =
      if connection.resolve.failed then some s
      else if connection.succeeds then
        ({ s with sock := s.sock.close }.onSocketConnected
          connection).map invokeOnStart
      else some { s with sock := s.sock.close } := by
  cases hResolve : connection.resolve.failed with
  | true => simp [startResolve, hResolve, stop, hStopped]
  | false =>
      cases hConnect : connection.connect.failed with
      | true =>
          simp [startResolve, startConnect, hStopped,
            hResolve, hConnect, Connection.succeeds, stop]
      | false =>
          cases hHandshake : connection.handshake.failed with
          | true =>
              simp [startResolve, startConnect, hStopped,
                hResolve, hConnect, hHandshake,
                Connection.succeeds, stop]
          | false =>
              have hNone : ({} : ErrorCode).failed = false :=
                rfl
              simp only [startResolve, startConnect,
                hStopped, hResolve, hConnect, hHandshake,
                Connection.succeeds, Bool.false_eq_true,
                Bool.not_true, Bool.not_false,
                Bool.and_true, if_false, if_true, ite_self,
                hNone]
              rw [Option.map_map]
              rfl

/- On a running session only a failed resolve has an effect. -/
theorem startResolve_of_running
    (hRunning : s.stopped = false)
    (connection : Connection) :
    (s.startResolve connection).map (·.1) =
      if connection.resolve.failed then some s.stop
      else
        (s.onSocketConnected connection).map
          invokeOnStart := by
  have hNone : ({} : ErrorCode).failed = false := rfl
  cases hResolve : connection.resolve.failed with
  | true => simp [startResolve, hResolve]
  | false =>
      simp only [startResolve, startConnect, hRunning,
        hResolve, Bool.false_eq_true, Bool.not_false,
        if_false, if_true, hNone]
      rw [Option.map_map]
      rfl

/- All that a connection attempt does to the session. -/
inductive ConnectStarted : HttpTlsSession → Prop
  | running
      (hRunning : s.stopped = false) :
      ConnectStarted s
  | closed
      (hStopped : s.stopped = true) :
      ConnectStarted { s with sock := s.sock.close }
  | failed
      (hStopped : s.stopped = true) :
      ConnectStarted { s with sock := s.sock.close }.stop

variable {s} in
theorem connectStarted_of_eq
    {s' : HttpTlsSession}
    {connection : Connection}
    (hStart : (s.startConnect connection).1 = s') :
    s.ConnectStarted s' := by
  rw [← hStart]
  unfold startConnect
  split
  · rename_i hRunning
    exact .running (by simpa using hRunning)
  · rename_i hStopped
    have hStopped : s.stopped = true := by
      simpa using hStopped
    simp only
    split
    · exact .closed hStopped
    · split
      · exact .failed hStopped
      · split <;> exact .closed hStopped

/- All that a socket that is connected leads to. -/
inductive SocketConnected
    (connection : Connection) : HttpTlsSession → Prop
  | greets
      {written : HttpTlsSession}
      (hFirst :
        s.session = false ∧ connection.clientNew = true)
      (hWrite :
        s.greeting.write connection.sends = some written) :
      SocketConnected connection written.read.startPing
  | again
      (hAgain :
        ¬ (s.session = false ∧
          connection.clientNew = true)) :
      SocketConnected connection { s with stopped := false }

variable {s} in
theorem socketConnected_of_some
    {s' : HttpTlsSession}
    {connection : Connection}
    (hConnected : s.onSocketConnected connection = some s') :
    s.SocketConnected connection s' := by
  rw [s.onSocketConnected_eq] at hConnected
  split at hConnected
  · rename_i hFirst
    rcases Option.map_eq_some_iff.mp hConnected with
      ⟨written, hWrite, rfl⟩
    exact .greets hFirst hWrite
  · rename_i hAgain
    rw [← Option.some.inj hConnected]
    exact .again hAgain

/- All that a returning resolve, and what follows it, can do. -/
inductive ResolveStarted
    (connection : Connection) :
    HttpTlsSession → Bool → Prop
  | unresolved
      (hFailed : connection.resolve.failed = true) :
      ResolveStarted connection s.stop false
  | unconnected
      (hResolved : connection.resolve.failed = false)
      (hFailed :
        (s.startConnect connection).2.failed = true) :
      ResolveStarted connection
        (s.startConnect connection).1.stop false
  | connected
      {connected : HttpTlsSession}
      (hResolved : connection.resolve.failed = false)
      (hConnect :
        (s.startConnect connection).2.failed = false)
      (hConnected :
        (s.startConnect connection).1.onSocketConnected
          connection = some connected) :
      ResolveStarted connection connected.invokeOnStart true

variable {s} in
theorem resolveStarted_of_some
    {s' : HttpTlsSession}
    {connection : Connection}
    {ok : Bool}
    (hResolve : s.startResolve connection = some (s', ok)) :
    s.ResolveStarted connection s' ok := by
  unfold startResolve at hResolve
  split at hResolve
  · rename_i hFailed
    cases hResolve
    exact .unresolved hFailed
  · rename_i hResolved
    have hResolved : connection.resolve.failed = false := by
      simpa using hResolved
    simp only at hResolve
    split at hResolve
    · rename_i hFailed
      cases hResolve
      exact .unconnected hResolved hFailed
    · rename_i hConnect
      rcases Option.map_eq_some_iff.mp hResolve with
        ⟨connected, hConnected, hEnd⟩
      cases hEnd
      exact .connected hResolved (by simpa using hConnect)
        hConnected

end HttpTlsSession

end Network

------------------------------------------------------------
-- Steps
------------------------------------------------------------

namespace Network

namespace HttpTlsSession

variable {s s' : HttpTlsSession}

/-
  What a step that returns has done.  A handler without its
  operation under way is idle.
-/
inductive Handled (s s' : HttpTlsSession) :
    SessionEvent → Prop
  | idle
      (event : SessionEvent)
      (hSame : s' = s) :
      Handled s s' event
  | startResolve
      (connection : Connection)
      (ok : Bool)
      (hResolve :
        s.startResolve connection = some (s', ok)) :
      Handled s s' (.startResolve connection)
  | readDone
      (ec : ErrorCode)
      (n : Nat)
      (recv : Recv)
      (reads : Nat)
      (hReads : s.sock.reads = reads + 1)
      (hHandler :
        { s with
          sock := { s.sock with reads := reads } }.readHandler
            ec n recv = some s') :
      Handled s s' (.readDone ec n recv)
  | readCancelled
      (recv : Recv)
      (reads : Nat)
      (hReads : s.sock.cancelledReads = reads + 1)
      (hSame :
        s' =
          { s with
            sock :=
              { s.sock with cancelledReads := reads } }) :
      Handled s s' (.readCancelled recv)
  | writeDone
      (ec : ErrorCode)
      (n : Nat)
      (sends : List Send)
      (data : Bytes)
      (writes : List Bytes)
      (hWrites : s.sock.writes = data :: writes)
      (hHandler :
        (s.completeWrite n data writes).writeHandler ec
            (min n data.length) sends = some s') :
      Handled s s' (.writeDone ec n sends)
  | writeCancelled
      (sends : List Send)
      (writes : Nat)
      (hSame :
        s' =
          { s with
            sock :=
              { s.sock with
                cancelledWrites := writes } }.stop) :
      Handled s s' (.writeCancelled sends)
  | pingExpired
      (sends : List Send)
      (ping : Timer)
      (hHandler :
        { s with ping := ping }.pingHandler {} sends =
          some s') :
      Handled s s' (.pingExpired sends)
  | pingCancelled
      (sends : List Send)
      (ping : Timer)
      (hHandler :
        { s with ping := ping }.pingHandler
            .operationAborted sends = some s') :
      Handled s s' (.pingCancelled sends)
  | write
      (sends : List Send)
      (hWrite : s.write sends = some s') :
      Handled s s' (.write sends)
  | submit
      (arguments : SubmitArguments)
      (submission : Submission)
      (result : ErrorCode × Int)
      (hSubmit :
        s.submit arguments submission =
          some (s', result)) :
      Handled s s' (.submit arguments submission)
  | startPing (hSame : s' = s.startPing) :
      Handled s s' .startPing
  | cancelPing (hSame : s' = s.cancelPing) :
      Handled s s' .cancelPing
  | stop (hSame : s' = s.stop) :
      Handled s s' .stop

theorem step_handled
    {event : SessionEvent}
    (hStep : s.step event = some s') :
    Handled s s' event := by
  cases event with
  | startResolve connection =>
      rcases Option.map_eq_some_iff.mp hStep with
        ⟨⟨_, ok⟩, hResolve, rfl⟩
      exact .startResolve connection ok hResolve
  | readDone ec n recv =>
      simp only [step] at hStep
      split at hStep
      · exact .idle _ (Option.some.inj hStep).symm
      · rename_i reads hReads
        exact .readDone ec n recv reads hReads hStep
  | readCancelled recv =>
      simp only [step] at hStep
      split at hStep
      · exact .idle _ (Option.some.inj hStep).symm
      · rename_i reads hReads
        simp only [readHandler, if_true] at hStep
        exact .readCancelled recv reads hReads
          (Option.some.inj hStep).symm
  | writeDone ec n sends =>
      simp only [step] at hStep
      split at hStep
      · exact .idle _ (Option.some.inj hStep).symm
      · rename_i data writes hWrites
        exact .writeDone ec n sends data writes hWrites hStep
  | writeCancelled sends =>
      simp only [step] at hStep
      split at hStep
      · exact .idle _ (Option.some.inj hStep).symm
      · rename_i writes _
        -- the error code of a cancelled write is a failure
        simp only [writeHandler] at hStep
        rw [if_pos (by decide), Option.some.injEq] at hStep
        exact .writeCancelled sends writes hStep.symm
  | pingExpired sends =>
      simp only [step] at hStep
      split at hStep
      · exact .idle _ (Option.some.inj hStep).symm
      · exact .pingExpired sends _ hStep
  | pingCancelled sends =>
      simp only [step] at hStep
      split at hStep
      · exact .idle _ (Option.some.inj hStep).symm
      · exact .pingCancelled sends _ hStep
  | write sends => exact .write sends hStep
  | submit arguments submission =>
      rcases Option.map_eq_some_iff.mp hStep with
        ⟨⟨_, result⟩, hSubmit, rfl⟩
      exact .submit arguments submission result hSubmit
  | startPing => exact .startPing (Option.some.inj hStep).symm
  | cancelPing =>
      exact .cancelPing (Option.some.inj hStep).symm
  | stop => exact .stop (Option.some.inj hStep).symm

/- Steps that neither connect nor read keep the reads. -/
theorem step_kept
    {event : SessionEvent}
    (hConnect :
      ∀ connection, event ≠ .startResolve connection)
    (hRead : ∀ ec n recv, event ≠ .readDone ec n recv)
    (hCancelled : ∀ recv, event ≠ .readCancelled recv)
    (hStep : s.step event = some s') :
    Kept s s' := by
  cases step_handled hStep with
  | idle event hSame => exact hSame ▸ .refl s
  | startResolve connection ok hResolve =>
      exact absurd rfl (hConnect connection)
  | readDone ec n recv reads hReads hHandler =>
      exact absurd rfl (hRead ec n recv)
  | readCancelled recv reads hReads hSame =>
      exact absurd rfl (hCancelled recv)
  | writeDone ec n sends data writes hWrites hHandler =>
      refine .trans ?_ (writeHandler_kept hHandler)
      constructor <;> first | rfl | exact id
  | writeCancelled sends writes hSame =>
      refine hSame ▸ .trans ?_ (stop_undisturbed _).kept
      constructor <;> first | rfl | exact id
  | pingExpired sends ping hHandler =>
      refine .trans ?_ (pingHandler_kept hHandler)
      constructor <;> first | rfl | exact id
  | pingCancelled sends ping hHandler =>
      refine .trans ?_ (pingHandler_kept hHandler)
      constructor <;> first | rfl | exact id
  | write sends hWrite => exact write_kept _ hWrite
  | submit arguments submission result hSubmit =>
      exact submit_kept hSubmit
  | startPing hSame =>
      subst hSame
      constructor <;> first | rfl | exact id
  | cancelPing hSame =>
      subst hSame
      constructor <;> first | rfl | exact id
  | stop hSame => exact hSame ▸ s.stop_undisturbed.kept

end HttpTlsSession

end Network
