import XMLHttpRequest.Session.Frames
import XMLHttpRequest.Library.Pipe

/-
  The bytes between nghttp2 and the socket.

  Abstractly they go through a pipe: nghttp2's chunks enter
  it, and what the socket has accepted has left it.  The write
  buffer and the parked chunk hold what is queued.  The code
  refines this as long as the socket accepts every write as a
  whole.

  Key definitions include:
    * `Network.HttpTlsSession.Carries`
    * `Network.HttpTlsSession.Flowing`
    * `Network.HttpTlsSession.Delivers`
    * `Network.HttpTlsSession.WritesFully`

  Key theorems include:
    * `Network.HttpTlsSession.sendLoop_rule`
    * `Network.HttpTlsSession.write_flowing`
    * `Network.HttpTlsSession.step_flowing`
    * `Network.HttpTlsSession.delivers_of_writesFully`
-/

------------------------------------------------------------
-- The Pipe of a Session
------------------------------------------------------------

namespace Network

namespace HttpTlsSession

/-
  The session carries a pipe: what nghttp2 has handed out
  entered it, what the socket has accepted left it, and the
  staged bytes and the parked chunk are queued.
-/
structure Carries
    (s : HttpTlsSession)
    (pipe : Pipe UInt8) : Prop where
  entered : pipe.entered = s.nghttp2.sent.flatten
  left : pipe.left = s.sock.accepted
  queued :
    pipe.queued =
      s.wb.bytes.take s.wblen ++ s.dataPending.getD []

/- A chunk may only be parked behind staged bytes. -/
structure Loaded (s : HttpTlsSession) : Prop where
  carries : ∃ pipe, s.Carries pipe
  wblen_le : s.wblen ≤ bufferSize
  pending_le :
    ∀ data ∈ s.dataPending, data.length ≤ bufferSize
  parked : s.wblen = 0 → s.dataPending = none

/-
  What holds of a running session between handlers: the
  staged bytes are being written, or nothing is staged.
-/
structure Flows (s : HttpTlsSession) : Prop extends
    Loaded s where
  writing :
    s.writing = true →
      s.sock.writes = [s.wb.bytes.take s.wblen]
  idle :
    s.writing = false →
      s.sock.writes = [] ∧ s.wblen = 0

/- Nothing is claimed of a session that has stopped. -/
def Flowing (s : HttpTlsSession) : Prop :=
  s.stopped = true ∨ s.Flows

/-
  The socket has accepted a first part of nghttp2's chunks,
  and all of them when no write is under way.
-/
def Delivers (s : HttpTlsSession) : Prop :=
  s.stopped = false →
    s.sock.accepted <+: s.nghttp2.sent.flatten ∧
      (s.writing = false →
        s.sock.accepted = s.nghttp2.sent.flatten ∧
          s.dataPending = none)

theorem Flowing.delivers
    {s : HttpTlsSession}
    (hFlowing : s.Flowing) :
    s.Delivers := by
  intro hRunning
  have hFlows : s.Flows := by
    rcases hFlowing with hStopped | hFlows
    · exact absurd (hStopped.symm.trans hRunning) (by decide)
    · exact hFlows
  rcases hFlows.carries with ⟨pipe, hCarries⟩
  constructor
  · rw [← hCarries.left, ← hCarries.entered]
    exact pipe.left_isPrefix
  · intro hIdle
    have hEmpty := (hFlows.idle hIdle).2
    have hNone := hFlows.parked hEmpty
    have hQueued : pipe.queued = [] := by
      rw [hCarries.queued, hEmpty, hNone]
      rfl
    refine ⟨?_, hNone⟩
    rw [← hCarries.left, ← hCarries.entered]
    exact pipe.left_eq_entered hQueued

end HttpTlsSession

end Network

------------------------------------------------------------
-- Frames
------------------------------------------------------------

namespace Network

namespace HttpTlsSession

/-
  Nothing of the outbound stream has changed, except that the
  session may have stopped.
-/
structure SameStream (s s' : HttpTlsSession) : Prop where
  wb : s'.wb = s.wb
  wblen : s'.wblen = s.wblen
  dataPending : s'.dataPending = s.dataPending
  writing : s'.writing = s.writing
  sent : s'.nghttp2.sent = s.nghttp2.sent
  accepted : s'.sock.accepted = s.sock.accepted
  writes : s'.sock.writes = s.sock.writes
  stopped : s.stopped = true → s'.stopped = true

variable {s s' : HttpTlsSession}
variable {pipe : Pipe UInt8}

theorem Undisturbed.sameStream
    (hUndisturbed : Undisturbed s s') :
    SameStream s s' where
  wb := hUndisturbed.wb
  wblen := hUndisturbed.wblen
  dataPending := hUndisturbed.dataPending
  writing := hUndisturbed.writing
  sent := by rw [hUndisturbed.nghttp2]
  accepted := by rw [hUndisturbed.sock]
  writes := by rw [hUndisturbed.sock]
  stopped := hUndisturbed.stopped

/- Only these bytes matter to what is loaded. -/
theorem Loaded.of_bytes
    (hLoaded : s.Loaded)
    (hBuffer : s'.wb = s.wb)
    (hLength : s'.wblen = s.wblen)
    (hPending : s'.dataPending = s.dataPending)
    (hSent : s'.nghttp2.sent = s.nghttp2.sent)
    (hAccepted : s'.sock.accepted = s.sock.accepted) :
    s'.Loaded := by
  rcases hLoaded.carries with ⟨pipe, hCarries⟩
  refine ⟨⟨pipe, ?_, ?_, ?_⟩, ?_, ?_, ?_⟩
  · rw [hSent, hCarries.entered]
  · rw [hAccepted, hCarries.left]
  · rw [hBuffer, hLength, hPending, hCarries.queued]
  · rw [hLength]
    exact hLoaded.wblen_le
  · rw [hPending]
    exact hLoaded.pending_le
  · rw [hLength, hPending]
    exact hLoaded.parked

namespace SameStream

theorem carries
    (hSame : SameStream s s')
    (hCarries : s.Carries pipe) :
    s'.Carries pipe where
  entered := by rw [hSame.sent, hCarries.entered]
  left := by rw [hSame.accepted, hCarries.left]
  queued := by
    rw [hSame.wb, hSame.wblen, hSame.dataPending,
      hCarries.queued]

theorem flowing
    (hSame : SameStream s s')
    (hFlowing : s.Flowing) :
    s'.Flowing := by
  rcases hFlowing with hStopped | hFlows
  · exact .inl (hSame.stopped hStopped)
  · right
    constructor
    · exact hFlows.toLoaded.of_bytes hSame.wb hSame.wblen
        hSame.dataPending hSame.sent hSame.accepted
    · rw [hSame.writing, hSame.writes, hSame.wb,
        hSame.wblen]
      exact hFlows.writing
    · rw [hSame.writing, hSame.writes, hSame.wblen]
      exact hFlows.idle

end SameStream

theorem stop_flowing : s.stop.Flowing :=
  .inl s.stop_stopped

end HttpTlsSession

end Network

------------------------------------------------------------
-- Staging
------------------------------------------------------------

namespace Network

/- The chunks that nghttp2 returns fit the write buffer. -/
def Send.Fits (send : Send) : Prop :=
  ∀ data ∈ send.result, data.length ≤ bufferSize

instance (send : Send) : Decidable send.Fits :=
  inferInstanceAs (Decidable
    (∀ data ∈ send.result, data.length ≤ bufferSize))

namespace HttpTlsSession

variable {s : HttpTlsSession}
variable {pipe : Pipe UInt8}

theorem sizeT_small
    {n : Nat}
    (hSmall : n ≤ 2 * bufferSize) :
    sizeT (n : Int) = n := by
  apply sizeT_ofNat
  unfold bufferSize at hSmall
  omega

theorem stage_wblen
    {data : Bytes}
    (hFits : s.wblen + data.length ≤ bufferSize) :
    (s.stage data).wblen = s.wblen + data.length :=
  sizeT_small (by omega)

/- A staged chunk enters the pipe. -/
theorem stage_carries
    {data : Bytes}
    (hNone : s.dataPending = none)
    (hFits : s.wblen + data.length ≤ bufferSize)
    (hCarries : s.Carries pipe) :
    ((s.receiveChunk data).stage data).Carries
      (pipe.push data) where
  entered := by
    simp [hCarries.entered, receiveChunk, stage]
  left := hCarries.left
  queued := by
    have hQueued := hCarries.queued
    rw [hNone, Option.getD_none, List.append_nil] at hQueued
    have hLength :
        ((s.receiveChunk data).stage data).wblen =
          s.wblen + data.length :=
      stage_wblen (s := s.receiveChunk data) hFits
    have hPending :
        ((s.receiveChunk data).stage data).dataPending =
          none := hNone
    rw [hLength, hPending, Option.getD_none,
      List.append_nil]
    rw [Pipe.push_queued, hQueued]
    exact (Buffer.take_copy _ _ _ hFits).symm

/- A parked chunk enters the pipe, too. -/
theorem park_carries
    {data : Bytes}
    (hNone : s.dataPending = none)
    (hCarries : s.Carries pipe) :
    ({ s.receiveChunk data with
      dataPending := some data }).Carries
        (pipe.push data) where
  entered := by
    simp [hCarries.entered, receiveChunk]
  left := hCarries.left
  queued := by
    simp [hCarries.queued, hNone, receiveChunk]

/- Staging what was parked moves it inside the queue. -/
theorem stagePending_carries
    (hEmpty : s.wblen = 0)
    (hPending :
      ∀ data ∈ s.dataPending, data.length ≤ bufferSize)
    (hCarries : s.Carries pipe) :
    s.stagePending.Carries pipe ∧
      s.stagePending.dataPending = none ∧
      s.stagePending.wblen ≤ bufferSize := by
  unfold stagePending
  split
  · rename_i data hData
    have hFits : s.wblen + data.length ≤ bufferSize := by
      rw [hEmpty, Nat.zero_add]
      exact hPending data hData
    have hLength := stage_wblen hFits
    refine ⟨⟨hCarries.entered, hCarries.left, ?_⟩, rfl, ?_⟩
    · have hTake :
          (s.stage data).wb.bytes.take
              (s.stage data).wblen =
            s.wb.bytes.take s.wblen ++ data := by
        rw [hLength]
        exact Buffer.take_copy _ _ _ hFits
      have hQueued := hCarries.queued
      rw [hData, Option.getD_some, ← hTake] at hQueued
      simpa using hQueued
    · exact hLength.trans_le hFits
  · rename_i hNone
    exact ⟨hCarries, hNone, by rw [hEmpty]; omega⟩

/-
  What the loop of `write` achieves when every chunk fits the
  buffer: `I` is kept until it ends, in one of three ways.
-/
theorem sendLoop_rule
    {I : HttpTlsSession → Prop}
    {Q : HttpTlsSession × Bool → Prop}
    (hUpcalls : ∀ s upcalls, I s → I (s.upcalls upcalls))
    (hLength : ∀ s, I s → s.wblen ≤ bufferSize)
    (hStop : ∀ s, I s → Q (s.stop, false))
    (hNothing : ∀ s, I s → Q (s, true))
    (hPark :
      ∀ s data, I s → data.length ≤ bufferSize →
        bufferSize < s.wblen + data.length →
        Q ({ s.receiveChunk data with
              dataPending := some data }, true))
    (hStage :
      ∀ s data, I s →
        s.wblen + data.length ≤ bufferSize →
        I ((s.receiveChunk data).stage data))
    {sends : List Send}
    (hFits : ∀ send ∈ sends, send.Fits)
    {s : HttpTlsSession}
    (hInv : I s) :
    Q (s.sendLoop sends) := by
  induction sends generalizing s with
  | nil => exact hNothing s hInv
  | cons send sends ih =>
      simp only [sendLoop]
      have hCalled := hUpcalls s send.upcalls hInv
      generalize s.upcalls send.upcalls = called at hCalled ⊢
      split
      · -- out of memory
        exact hStop called hCalled
      · exact hNothing called hCalled
      · rename_i data hChunk hResult
        have hData : data.length ≤ bufferSize :=
          hFits send List.mem_cons_self data hResult
        have hBound := hLength called hCalled
        have hSum :
            sizeT ((called.wblen + data.length : Nat) : Int) =
              called.wblen + data.length :=
          sizeT_small (by omega)
        rw [show (called.receiveChunk data).wblen =
          called.wblen from rfl, hSum]
        split
        · rename_i hLong
          exact hPark called data hCalled hData hLong
        · rename_i hShort
          refine ih (fun next hNext => hFits next
            (List.mem_cons_of_mem _ hNext)) ?_
          exact hStage called data hCalled
            (Nat.le_of_not_lt hShort)

/- Nothing is parked, and the staged bytes are in the pipe. -/
structure Carrying (s : HttpTlsSession) : Prop where
  carries : ∃ pipe, s.Carries pipe
  dataPending : s.dataPending = none
  length : s.wblen ≤ bufferSize

theorem Carrying.loaded
    (hCarrying : s.Carrying) :
    s.Loaded := by
  refine ⟨hCarrying.carries, hCarrying.length, ?_, ?_⟩
  · rw [hCarrying.dataPending]
    exact nofun
  · exact fun _ => hCarrying.dataPending

theorem Undisturbed.carrying
    {s s' : HttpTlsSession}
    (hUndisturbed : Undisturbed s s')
    (hCarrying : s.Carrying) :
    s'.Carrying := by
  rcases hCarrying.carries with ⟨pipe, hCarries⟩
  refine ⟨⟨pipe, hUndisturbed.sameStream.carries hCarries⟩,
    hUndisturbed.dataPending.trans hCarrying.dataPending, ?_⟩
  rw [hUndisturbed.wblen]
  exact hCarrying.length

/-
  The loop of `write` lets nghttp2's chunks into the pipe.  A
  chunk is parked only when the buffer is not empty.
-/
theorem sendLoop_loaded
    {sends : List Send}
    (hFits : ∀ send ∈ sends, send.Fits)
    (hCarrying : s.Carrying) :
    (s.sendLoop sends).1.Loaded ∧
      ((s.sendLoop sends).2 = false →
        (s.sendLoop sends).1.stopped = true) := by
  refine sendLoop_rule (I := Carrying)
    (Q := fun sent =>
      sent.1.Loaded ∧ (sent.2 = false → sent.1.stopped = true))
    ?_ (fun _ => Carrying.length) ?_ ?_ ?_ ?_ hFits hCarrying
  · intro s upcalls
    exact (s.upcalls_undisturbed upcalls).carrying
  · intro s hCarrying
    exact ⟨(s.stop_undisturbed.carrying hCarrying).loaded,
      fun _ => s.stop_stopped⟩
  · intro s hCarrying
    refine ⟨hCarrying.loaded, ?_⟩
    intro hEnd
    cases hEnd
  · -- the chunk does not fit behind the staged bytes
    intro s data hCarrying hData hLong
    rcases hCarrying.carries with ⟨pipe, hCarries⟩
    refine ⟨⟨⟨_, park_carries hCarrying.dataPending
      hCarries⟩, hCarrying.length, ?_, ?_⟩, ?_⟩
    · simpa using hData
    · intro hEmpty
      have hZero : s.wblen = 0 := hEmpty
      omega
    · intro hEnd
      cases hEnd
  · intro s data hCarrying hRoom
    rcases hCarrying.carries with ⟨pipe, hCarries⟩
    refine ⟨⟨_, stage_carries hCarrying.dataPending hRoom
      hCarries⟩, hCarrying.dataPending, ?_⟩
    rw [stage_wblen (s := s.receiveChunk data) hRoom]
    exact hRoom

end HttpTlsSession

end Network

------------------------------------------------------------
-- Writing
------------------------------------------------------------

namespace Network

namespace HttpTlsSession

variable {s s' : HttpTlsSession}
variable {pipe : Pipe UInt8}

/- A write from a buffer that has been emptied. -/
theorem write_flowing
    {sends : List Send}
    (hFits : ∀ send ∈ sends, send.Fits)
    (hIdle : s.writing = false)
    (hWrites : s.sock.writes = [])
    (hEmpty : s.wblen = 0)
    (hPending :
      ∀ data ∈ s.dataPending, data.length ≤ bufferSize)
    (hCarries : s.Carries pipe)
    (hWrite : s.write sends = some s') :
    s'.Flowing := by
  rcases s.write_cases hWrite with
    ⟨hStopped | hWriting, rfl⟩ | ⟨_, _, _, hEnd⟩
  · exact .inl hStopped
  · exact absurd (hWriting.symm.trans hIdle) (by decide)
  · rcases stagePending_carries hEmpty hPending hCarries with
      ⟨hStaged, hNone, hLength⟩
    have hLocked : s.stagePending.hold.Carrying :=
      ⟨⟨pipe, hStaged.entered, hStaged.left,
        hStaged.queued⟩, hNone, hLength⟩
    rcases sendLoop_loaded hFits hLocked with
      ⟨hLoaded, hMemory⟩
    have hSock := s.pumped_sock sends
    have hPumpedWrites :
        (s.pumped sends).1.sock.writes = [] := by
      rw [hSock.1]
      exact hWrites
    have hPumpedIdle :
        (s.pumped sends).1.writing = false :=
      hSock.2.trans hIdle
    rcases hEnd with ⟨hEmptyEnd, rfl⟩ | ⟨_, rfl⟩
    · rcases hEmptyEnd with hFailed | hNothing
      · exact .inl (hMemory hFailed)
      · right
        constructor
        · exact hLoaded.of_bytes rfl rfl rfl rfl rfl
        · intro hWriting
          exact absurd (hWriting.symm.trans hPumpedIdle)
            (by decide)
        · exact fun _ => ⟨hPumpedWrites, hNothing⟩
    · right
      constructor
      · exact hLoaded.of_bytes rfl rfl rfl rfl rfl
      · intro _
        simp only [writeSocket, unlock]
        rw [hPumpedWrites]
        rfl
      · intro hIdleEnd
        cases hIdleEnd

/- A write at any other time. -/
theorem Flowing.write
    {sends : List Send}
    (hFits : ∀ send ∈ sends, send.Fits)
    (hFlowing : s.Flowing)
    (hWrite : s.write sends = some s') :
    s'.Flowing := by
  rcases hFlowing with hStopped | hFlows
  · rw [s.write_of_stopped hStopped] at hWrite
    rw [← Option.some.inj hWrite]
    exact .inl hStopped
  · cases hWriting : s.writing with
    | true =>
        rw [s.write_of_writing hWriting] at hWrite
        rw [← Option.some.inj hWrite]
        exact .inr hFlows
    | false =>
        rcases hFlows.carries with ⟨pipe, hCarries⟩
        have hIdle := hFlows.idle hWriting
        exact write_flowing hFits hWriting hIdle.1 hIdle.2
          hFlows.pending_le hCarries hWrite

/- A completed write takes the staged bytes out of the pipe. -/
theorem completeWrite_carries
    {n : Nat}
    (hLength : s.wblen ≤ bufferSize)
    (hFull : (s.wb.bytes.take s.wblen).length ≤ n)
    (hCarries : s.Carries pipe) :
    (s.completeWrite n (s.wb.bytes.take s.wblen)
      []).clearBuffer.Carries (pipe.pop s.wblen) := by
  have hTaken :
      (s.wb.bytes.take s.wblen).take n =
        s.wb.bytes.take s.wblen :=
    List.take_of_length_le hFull
  have hStaged :
      (s.wb.bytes.take s.wblen).length = s.wblen := by
    rw [List.length_take, s.wb.length_bytes]
    exact Nat.min_eq_left hLength
  refine ⟨?_, ?_, ?_⟩
  · exact hCarries.entered
  · rw [Pipe.pop_left, hCarries.left, hCarries.queued,
      List.take_left' hStaged]
    exact congrArg (s.sock.accepted ++ ·) hTaken.symm
  · rw [Pipe.pop_queued, hCarries.queued,
      List.drop_left' hStaged]
    rfl

/- The socket has accepted the one write as a whole. -/
theorem completeWrite_flowing
    (hFlows : s.Flows)
    {ec : ErrorCode}
    {n : Nat}
    {sends : List Send}
    {data : Bytes}
    {writes : List Bytes}
    (hFits : ∀ send ∈ sends, send.Fits)
    (hWrites : s.sock.writes = data :: writes)
    (hFull : ec.failed = false → data.length ≤ n)
    {m : Nat}
    (hHandler :
      (s.completeWrite n data writes).writeHandler ec m
        sends = some s') :
    s'.Flowing := by
  have hWriting : s.writing = true := by
    cases hWriting : s.writing with
    | true => rfl
    | false =>
        have hNone := (hFlows.idle hWriting).1
        rw [hWrites] at hNone
        cases hNone
  have hOne := hFlows.writing hWriting
  rw [hWrites, List.cons.injEq] at hOne
  rcases hOne with ⟨rfl, rfl⟩
  cases writeHandled_of_some hHandler with
  | stopped _ => exact stop_flowing
  | cleared hSuccess _ hWrite =>
      rcases hFlows.carries with ⟨pipe, hCarries⟩
      have hCleared :=
        completeWrite_carries hFlows.wblen_le
          (hFull hSuccess) hCarries
      have hEmpty :
          (s.completeWrite n (s.wb.bytes.take s.wblen)
            []).clearBuffer.wblen = 0 := rfl
      exact write_flowing hFits (by rfl) (by rfl) hEmpty
        hFlows.pending_le hCleared hWrite

end HttpTlsSession

end Network

------------------------------------------------------------
-- Steps
------------------------------------------------------------

namespace Network

/- The event is no connection attempt. -/
def SessionEvent.connects : SessionEvent → Bool
  | .startResolve _ => true
  | _ => false

namespace HttpTlsSession

variable {s s' : HttpTlsSession}

/-
  A write that succeeds has been accepted as a whole: the
  completion reports every byte that was handed over.
-/
def WritesFully
    (s : HttpTlsSession) :
    SessionEvent → Prop
  | .writeDone ec n _ =>
      ec.failed = false →
        ∀ data ∈ s.sock.writes.head?, data.length ≤ n
  | _ => True

theorem readHandler_flowing
    (hFlowing : s.Flowing)
    {ec : ErrorCode}
    {n : Nat}
    {recv : Recv}
    (hFits : ∀ send ∈ recv.sends, send.Fits)
    (hHandler : s.readHandler ec n recv = some s') :
    s'.Flowing := by
  have hHeld : SameStream s s.hold := by
    constructor <;> first | rfl | exact id
  have hUpcalls :=
    (s.hold.upcalls_undisturbed
      recv.upcalls).sameStream.flowing
        (hHeld.flowing hFlowing)
  have hUnlocked :
      (s.hold.upcalls recv.upcalls).unlock.Flowing := by
    refine SameStream.flowing ?_ hUpcalls
    constructor <;> first | rfl | exact id
  cases readHandled_of_some hHandler with
  | nothing _ => exact hFlowing
  | failed _ _ => exact stop_flowing
  | refused _ _ _ => exact .inl (stop_stopped _)
  | ended _ _ _ _ => exact stop_flowing
  | goesOn _ _ hWrite _ =>
      refine SameStream.flowing ?_
        (hUnlocked.write hFits hWrite)
      unfold read
      split <;> constructor <;> first | rfl | exact id

theorem pingHandler_flowing
    (hFlowing : s.Flowing)
    {ec : ErrorCode}
    {sends : List Send}
    (hFits : ∀ send ∈ sends, send.Fits)
    (hHandler : s.pingHandler ec sends = some s') :
    s'.Flowing := by
  rcases Option.map_eq_some_iff.mp hHandler with
    ⟨written, hWrite, rfl⟩
  have hSubmitted : (s.submitPing ec).Flowing := by
    refine SameStream.flowing ?_ hFlowing
    unfold submitPing
    split <;> constructor <;> first | rfl | exact id
  refine SameStream.flowing ?_
    (hSubmitted.write hFits hWrite)
  constructor <;> first | rfl | exact id

theorem submit_flowing
    (hFlowing : s.Flowing)
    {arguments : SubmitArguments}
    {submission : Submission}
    {result : ErrorCode × Int}
    (hFits : ∀ send ∈ submission.sends, send.Fits)
    (hSubmit :
      s.submit arguments submission = some (s', result)) :
    s'.Flowing := by
  rcases submit_cases hSubmit with
    rfl | ⟨request, written, hLocked, rfl⟩
  · exact hFlowing
  · have hRequest : (s.receiveRequest request).Flowing := by
      refine SameStream.flowing ?_ hFlowing
      constructor <;> first | rfl | exact id
    have hWritten : written.Flowing := by
      rcases writeLocked_cases hLocked with
        ⟨_, rfl⟩ | ⟨_, unlocked, hWrite, rfl⟩
      · exact hRequest
      · have hHold :
            (s.receiveRequest request).hold.Flowing := by
          refine SameStream.flowing ?_ hRequest
          constructor <;> first | rfl | exact id
        refine SameStream.flowing ?_
          (hHold.write hFits hWrite)
        constructor <;> first | rfl | exact id
    refine SameStream.flowing ?_ hWritten
    constructor <;> first | rfl | exact id

/- What a step of a session that stays connected keeps. -/
theorem step_flowing
    (hFlowing : s.Flowing)
    {event : SessionEvent}
    (hConnects : event.connects = false)
    (hFits : ∀ send ∈ event.sends, send.Fits)
    (hFull : s.WritesFully event)
    (hStep : s.step event = some s') :
    s'.Flowing := by
  cases step_handled hStep with
  | idle event hSame => exact hSame ▸ hFlowing
  | startResolve connection ok hResolve => cases hConnects
  | readDone ec n recv reads hReads hHandler =>
      refine readHandler_flowing ?_ hFits hHandler
      refine SameStream.flowing ?_ hFlowing
      constructor <;> first | rfl | exact id
  | readCancelled recv reads hReads hSame =>
      refine SameStream.flowing ?_ hFlowing
      subst hSame
      constructor <;> first | rfl | exact id
  | writeDone ec n sends data writes hWrites hHandler =>
      rcases hFlowing with hStopped | hFlows
      · left
        apply (writeHandler_kept hHandler).stopped
        exact hStopped
      · refine completeWrite_flowing hFlows hFits hWrites
          ?_ hHandler
        intro hSuccess
        exact hFull hSuccess data (by simp [hWrites])
  | writeCancelled sends writes hSame =>
      exact hSame ▸ stop_flowing
  | pingExpired sends ping hHandler =>
      refine pingHandler_flowing ?_ hFits hHandler
      refine SameStream.flowing ?_ hFlowing
      constructor <;> first | rfl | exact id
  | pingCancelled sends ping hHandler =>
      refine pingHandler_flowing ?_ hFits hHandler
      refine SameStream.flowing ?_ hFlowing
      constructor <;> first | rfl | exact id
  | write sends hWrite => exact hFlowing.write hFits hWrite
  | submit arguments submission result hSubmit =>
      exact submit_flowing hFlowing hFits hSubmit
  | startPing hSame =>
      refine SameStream.flowing ?_ hFlowing
      subst hSame
      constructor <;> first | rfl | exact id
  | cancelPing hSame =>
      refine SameStream.flowing ?_ hFlowing
      subst hSame
      constructor <;> first | rfl | exact id
  | stop hSame => exact hSame ▸ stop_flowing

end HttpTlsSession

end Network

------------------------------------------------------------
-- Runs
------------------------------------------------------------

namespace Network

namespace HttpTlsSession

/- Nothing is staged, parked or being written. -/
structure Unstaged (s : HttpTlsSession) : Prop where
  wblen : s.wblen = 0
  dataPending : s.dataPending = none
  writing : s.writing = false
  writes : s.sock.writes = []
  accepted : s.sock.accepted = s.nghttp2.sent.flatten

theorem Unstaged.flowing
    {s : HttpTlsSession}
    (hUnstaged : s.Unstaged) :
    s.Flowing := by
  right
  constructor
  · constructor
    · refine ⟨⟨s.nghttp2.sent.flatten, s.sock.accepted, [],
        ?_⟩, rfl, rfl, ?_⟩
      · rw [hUnstaged.accepted, List.append_nil]
      · rw [hUnstaged.wblen, hUnstaged.dataPending]
        rfl
    · rw [hUnstaged.wblen]
      exact Nat.zero_le _
    · simp [hUnstaged.dataPending]
    · exact fun _ => hUnstaged.dataPending
  · intro hWriting
    exact absurd (hWriting.symm.trans hUnstaged.writing)
      (by decide)
  · exact fun _ => ⟨hUnstaged.writes, hUnstaged.wblen⟩

/-
  Over one connection, as long as the socket accepts every
  write as a whole, it accepts nghttp2's chunks in order and
  without a loss.
-/
theorem delivers_of_writesFully
    (s : HttpTlsSession)
    (hUnstaged : s.Unstaged)
    (events : List SessionEvent)
    (hConnects :
      ∀ event ∈ events, event.connects = false)
    (hFits :
      ∀ event ∈ events, ∀ send ∈ event.sends, send.Fits)
    (hFull :
      Transition.Along step WritesFully s events)
    (s' : HttpTlsSession)
    (hRun : Transition.exec step s events = some s') :
    s'.Delivers := by
  apply Flowing.delivers
  -- the events of the run all satisfy what a step needs
  have hSteps :
      Transition.Along step
        (fun s event =>
          event.connects = false ∧
            (∀ send ∈ event.sends, send.Fits) ∧
              s.WritesFully event)
        s events := by
    clear hUnstaged hRun
    induction events generalizing s with
    | nil => trivial
    | cons event events ih =>
        refine ⟨⟨hConnects event List.mem_cons_self,
          hFits event List.mem_cons_self, hFull.1⟩, ?_⟩
        intro next hStep
        exact ih next
          (fun later hLater =>
            hConnects later (List.mem_cons_of_mem _ hLater))
          (fun later hLater =>
            hFits later (List.mem_cons_of_mem _ hLater))
          (hFull.2 next hStep)
  refine Transition.invariant ?_ hUnstaged.flowing hSteps
    hRun
  intro s event s' hFlowing hStep hNext
  exact step_flowing hFlowing hStep.1 hStep.2.1 hStep.2.2
    hNext

/- A running session with nothing to send so far. -/
def quietSession : HttpTlsSession :=
  { create (ascii "a") (ascii "443") zeroGarbage with
    session := true
    stopped := false }

/- Two chunks, the second sent after the first. -/
def twoChunks (accepted : Nat) : List SessionEvent :=
  [.write [{ result := some [1, 2] }],
    .writeDone {} accepted [{ result := some [3] }],
    .writeDone {} 1 []]

theorem delivers_two_chunks :
    ∃ s', Transition.exec step quietSession (twoChunks 2) =
        some s' ∧
      s'.Delivers := by
  have hEnds :
      (Transition.exec step quietSession
        (twoChunks 2)).isSome = true := by
    decide +kernel
  rcases Option.isSome_iff_exists.mp hEnds with ⟨s', hRun⟩
  refine ⟨s', hRun, ?_⟩
  refine delivers_of_writesFully quietSession ?_
    (twoChunks 2) ?_ ?_ ?_ s' hRun
  · constructor <;> rfl
  · decide
  · simp [twoChunks, SessionEvent.sends, Send.Fits,
      bufferSize]
  · refine ⟨trivial, fun s₁ hFirst =>
      ⟨fun _ => ?_, fun s₂ hSecond =>
        ⟨fun _ => ?_, fun _ _ => trivial⟩⟩⟩
    · have hWrites :
          (quietSession.step
            (.write [{ result := some [1, 2] }])).map
              (·.sock.writes) = some [[1, 2]] := by
        decide +kernel
      rw [hFirst, Option.map_some,
        Option.some.injEq] at hWrites
      simp [hWrites]
    · have hWrites :
          ((quietSession.step
              (.write [{ result := some [1, 2] }])).bind
            (·.step
              (.writeDone {} 2
                [{ result := some [3] }]))).map
              (·.sock.writes) = some [[3]] := by
        decide +kernel
      rw [hFirst, Option.bind_some, hSecond,
        Option.map_some, Option.some.injEq] at hWrites
      simp [hWrites]

/- The socket takes one byte of the first chunk. -/
theorem short_write_loses :
    ∃ s', Transition.exec step quietSession (twoChunks 1) =
        some s' ∧
      ¬ s'.Delivers := by
  have hFinal :
      (Transition.exec step quietSession (twoChunks 1)).map
          (fun s =>
            (s.stopped, s.sock.accepted, s.nghttp2.sent)) =
        some (false, [1, 3], [[1, 2], [3]]) := by
    decide +kernel
  rcases Option.map_eq_some_iff.mp hFinal with
    ⟨s', hRun, hState⟩
  refine ⟨s', hRun, ?_⟩
  intro hDelivers
  simp only [Prod.mk.injEq] at hState
  have hPrefix := (hDelivers hState.1).1
  rw [hState.2.1, hState.2.2] at hPrefix
  exact absurd hPrefix (by decide)

end HttpTlsSession

end Network
