import XMLHttpRequest.Library.Monitor
import XMLHttpRequest.Session.OutboundStream
import XMLHttpRequest.Session.SingleFlight

/-
  What the write buffer holds.

  A monitor marks how many chunks had been copied when a write
  completed last.  The staged bytes are those copied since,
  provided that they were none at first: `wblen_` has no
  initializer.

  Key definitions include:
    * `Network.HttpTlsSession.copiedChunks`
    * `Network.HttpTlsSession.stepMarked`
    * `Network.HttpTlsSession.Bounded`
    * `Network.HttpTlsSession.Filled`

  Key theorems include:
    * `Network.HttpTlsSession.sendLoop_filled`
    * `Network.HttpTlsSession.write_staged`
    * `Network.HttpTlsSession.bounded_along_iff`
-/

------------------------------------------------------------
-- Marks
------------------------------------------------------------

namespace Network

/- An event in which every chunk of nghttp2 fits the buffer. -/
def FittedEvent : Type :=
  { event : QueuedEvent //
    ∀ send ∈ event.sends, send.Fits }

namespace HttpTlsSession

/-
  The chunks that have been copied to the write buffer: all
  that nghttp2 has handed out but the one that is parked.
-/
def copiedChunks (s : HttpTlsSession) : List Bytes :=
  if s.dataPending.isSome then s.nghttp2.sent.dropLast
  else s.nghttp2.sent

/- A write that completes without an error moves the mark. -/
def markOf
    (mark : Nat)
    (s : HttpTlsSession)
    (event : FittedEvent)
    (_ : HttpTlsSession) : Nat :=
  match s.completion? event.1 with
  | some ec =>
      if ec.failed then mark else s.copiedChunks.length
  | none => mark

def stepMarked :
    HttpTlsSession × Nat →
      FittedEvent → Option (HttpTlsSession × Nat) :=
  Transition.observed
    (fun s event => s.stepQueued event.1) markOf

/-
  The staged bytes are those of the chunks copied since the
  mark, and no copy has left the buffer.
-/
structure Bounded
    (s : HttpTlsSession)
    (mark : Nat) : Prop where
  wblen_le : s.wblen ≤ bufferSize
  inside : s.overrun = false
  copied :
    s.wb.bytes.take s.wblen =
      (s.copiedChunks.drop mark).flatten

def LeavesBounded
    (marked : HttpTlsSession × Nat)
    (event : FittedEvent) : Prop :=
  ∀ next, stepMarked marked event = some next →
    next.1.Bounded next.2

/-
  A write that completes without an error finds stream zero
  open, or no stream zero.
-/
def ClearsBuffer
    (marked : HttpTlsSession × Nat)
    (event : FittedEvent) : Prop :=
  ∀ ec, marked.1.completion? event.1 = some ec →
    ec.failed = false → marked.1.zeroStreamClosed = false

/- The buffer, with a chunk that may be parked behind it. -/
structure Filled
    (s : HttpTlsSession)
    (mark : Nat) : Prop extends Bounded s mark where
  mark_le : mark ≤ s.copiedChunks.length
  pending :
    ∀ data ∈ s.dataPending,
      data.length ≤ bufferSize ∧
        s.nghttp2.sent.getLast? = some data

/-
  Between handlers a chunk is parked only while a write is
  under way, and nothing is written from an empty buffer.
-/
structure Staged
    (s : HttpTlsSession)
    (mark : Nat) : Prop extends Filled s mark, Flown s where
  parked :
    s.writing = false → s.dataPending = none ∨ s.wblen = 0
  nonempty : s.outstanding ≠ 0 → s.wblen ≠ 0

end HttpTlsSession

end Network

------------------------------------------------------------
-- Staging
------------------------------------------------------------

namespace Network

namespace HttpTlsSession

variable {s s' : HttpTlsSession}
variable {mark : Nat}

theorem copiedChunks_of_none
    (hNone : s.dataPending = none) :
    s.copiedChunks = s.nghttp2.sent := by
  simp [copiedChunks, hNone]

/- The parked chunk is the one that is not copied yet. -/
theorem Filled.copiedChunks_append
    (hFilled : s.Filled mark)
    {data : Bytes}
    (hPending : s.dataPending = some data) :
    s.copiedChunks ++ [data] = s.nghttp2.sent := by
  have hLast := (hFilled.pending data hPending).2
  simp only [copiedChunks, hPending, Option.isSome_some,
    if_true]
  exact List.dropLast_append_getLast? data hLast

theorem SameOutbound.filled
    (hSame : SameOutbound s s')
    (hFilled : s.Filled mark) :
    s'.Filled mark := by
  have hChunks : s'.copiedChunks = s.copiedChunks := by
    rw [copiedChunks, copiedChunks, hSame.dataPending,
      hSame.sent]
  constructor
  · constructor
    · rw [hSame.wblen]
      exact hFilled.wblen_le
    · rw [hSame.overrun]
      exact hFilled.inside
    · rw [hSame.wb, hSame.wblen, hChunks]
      exact hFilled.copied
  · rw [hChunks]
    exact hFilled.mark_le
  · rw [hSame.dataPending, hSame.sent]
    exact hFilled.pending

theorem SameOutbound.staged
    (hSame : SameOutbound s s')
    (hStaged : s.Staged mark) :
    s'.Staged mark where
  toFilled := hSame.filled hStaged.toFilled
  toFlown := hSame.flown hStaged.toFlown
  parked := by
    rw [hSame.writing, hSame.dataPending, hSame.wblen]
    exact hStaged.parked
  nonempty := by
    rw [hSame.outstanding, hSame.wblen]
    exact hStaged.nonempty

/- A chunk that is copied behind the staged bytes. -/
theorem Filled.stage
    (hFilled : s.Filled mark)
    {data : Bytes}
    (hRoom : s.wblen + data.length ≤ bufferSize)
    (hWb : s'.wb = (s.stage data).wb)
    (hWblen : s'.wblen = (s.stage data).wblen)
    (hOverrun : s'.overrun = (s.stage data).overrun)
    (hNone : s'.dataPending = none)
    (hSent : s'.nghttp2.sent = s.copiedChunks ++ [data]) :
    s'.Filled mark := by
  have hChunks :
      s'.copiedChunks = s.copiedChunks ++ [data] :=
    (copiedChunks_of_none hNone).trans hSent
  have hLength : s'.wblen = s.wblen + data.length :=
    hWblen.trans (stage_wblen hRoom)
  constructor
  · constructor
    · omega
    · rw [hOverrun, HttpTlsSession.stage, hFilled.inside]
      simpa using hRoom
    · rw [hWb, hLength, hChunks,
        List.drop_append_of_le_length hFilled.mark_le,
        List.flatten_append, ← hFilled.copied]
      simpa [HttpTlsSession.stage] using
        s.wb.take_copy s.wblen data hRoom
  · rw [hChunks, List.length_append]
    have hMark := hFilled.mark_le
    omega
  · simp [hNone]

/- A chunk that is parked. -/
theorem Filled.park
    (hFilled : s.Filled mark)
    (hNone : s.dataPending = none)
    {data : Bytes}
    (hData : data.length ≤ bufferSize)
    (hWb : s'.wb = s.wb)
    (hWblen : s'.wblen = s.wblen)
    (hOverrun : s'.overrun = s.overrun)
    (hPending : s'.dataPending = some data)
    (hSent : s'.nghttp2.sent = s.nghttp2.sent ++ [data]) :
    s'.Filled mark := by
  have hChunks : s'.copiedChunks = s.copiedChunks := by
    rw [copiedChunks_of_none hNone]
    simp [copiedChunks, hPending, hSent]
  constructor
  · constructor
    · rw [hWblen]
      exact hFilled.wblen_le
    · rw [hOverrun]
      exact hFilled.inside
    · rw [hWb, hWblen, hChunks]
      exact hFilled.copied
  · rw [hChunks]
    exact hFilled.mark_le
  · intro parked hParked
    rw [hPending, Option.mem_some_iff] at hParked
    subst hParked
    rw [hSent]
    exact ⟨hData, List.getLast?_concat⟩

/- The parked chunk is staged in an empty buffer. -/
theorem stagePending_filled
    (hFilled : s.Filled mark)
    (hParked : s.dataPending = none ∨ s.wblen = 0) :
    s.stagePending.Filled mark ∧
      s.stagePending.dataPending = none := by
  unfold stagePending
  split
  · rename_i data hPending
    have hEmpty : s.wblen = 0 := by
      rcases hParked with hNone | hEmpty
      · rw [hPending] at hNone
        cases hNone
      · exact hEmpty
    have hRoom : s.wblen + data.length ≤ bufferSize := by
      rw [hEmpty, Nat.zero_add]
      exact (hFilled.pending data hPending).1
    refine ⟨hFilled.stage hRoom rfl rfl rfl rfl ?_, rfl⟩
    exact (hFilled.copiedChunks_append hPending).symm
  · rename_i hNone
    exact ⟨hFilled, hNone⟩

/-
  The loop of `write` copies chunks as long as they fit.  One
  that does not is parked behind a buffer that is not empty.
-/
theorem sendLoop_filled
    {sends : List Send}
    (hFits : ∀ send ∈ sends, send.Fits)
    (hNone : s.dataPending = none)
    (hFilled : s.Filled mark) :
    (s.sendLoop sends).1.Filled mark ∧
      ((s.sendLoop sends).1.dataPending = none ∨
        (s.sendLoop sends).2 = true ∧
          (s.sendLoop sends).1.wblen ≠ 0) := by
  refine sendLoop_rule
    (I := fun s => s.dataPending = none ∧ s.Filled mark)
    (Q := fun sent =>
      sent.1.Filled mark ∧
        (sent.1.dataPending = none ∨
          sent.2 = true ∧ sent.1.wblen ≠ 0))
    ?_ ?_ ?_ ?_ ?_ ?_ hFits ⟨hNone, hFilled⟩
  · rintro s upcalls ⟨hNone, hFilled⟩
    have hUpcalls :=
      (s.upcalls_undisturbed upcalls).sameOutbound
    exact ⟨hUpcalls.dataPending.trans hNone,
      hUpcalls.filled hFilled⟩
  · exact fun _ hInv => hInv.2.wblen_le
  · rintro s ⟨hNone, hFilled⟩
    have hStop := s.stop_quiet.toSameOutbound
    exact ⟨hStop.filled hFilled,
      .inl (hStop.dataPending.trans hNone)⟩
  · rintro s ⟨hNone, hFilled⟩
    exact ⟨hFilled, .inl hNone⟩
  · rintro s data ⟨hNone, hFilled⟩ hData hLong
    refine ⟨?_, .inr ⟨rfl, ?_⟩⟩
    · exact hFilled.park hNone hData rfl rfl rfl rfl rfl
    · intro hEmpty
      have hZero : s.wblen = 0 := hEmpty
      omega
  · rintro s data ⟨hNone, hFilled⟩ hRoom
    refine ⟨hNone, hFilled.stage hRoom rfl rfl rfl hNone ?_⟩
    rw [copiedChunks_of_none hNone]
    rfl

end HttpTlsSession

end Network

------------------------------------------------------------
-- Writing
------------------------------------------------------------

namespace Network

namespace HttpTlsSession

variable {s s' : HttpTlsSession}
variable {mark : Nat}
variable {stirs : Bool}
variable {sends : List Send}

theorem pumped_filled
    (hFits : ∀ send ∈ sends, send.Fits)
    (hFilled : s.Filled mark)
    (hParked : s.dataPending = none ∨ s.wblen = 0) :
    (s.pumped sends).1.Filled mark ∧
      ((s.pumped sends).1.dataPending = none ∨
        (s.pumped sends).2 = true ∧
          (s.pumped sends).1.wblen ≠ 0) := by
  rcases stagePending_filled hFilled hParked with
    ⟨hStaged, hNone⟩
  have hHold : SameOutbound s.stagePending
      s.stagePending.hold := by
    constructor <;> first | rfl | exact fun _ => id
  exact sendLoop_filled hFits hNone
    (hHold.filled hStaged)

theorem write_staged
    (hFits : ∀ send ∈ sends, send.Fits)
    (hStaged : s.Staged mark)
    (hWrite : s.write sends = some s') :
    s'.Staged mark := by
  have hFlown := (write_flown hStaged.toFlown hWrite).1
  rcases s.write_cases hWrite with
    ⟨_, rfl⟩ | ⟨_, hIdle, _, hEnd⟩
  · exact hStaged
  · rcases pumped_filled hFits hStaged.toFilled
        (hStaged.parked hIdle) with
      ⟨hFilled, hParked⟩
    have hSock := s.pumped_sock sends
    rcases hEnd with ⟨hNothing, rfl⟩ | ⟨hSome, rfl⟩
    · have hUnlock : SameOutbound (s.pumped sends).1
          (s.pumped sends).1.unlock := by
        constructor <;> first | rfl | exact fun _ => id
      have hNone : (s.pumped sends).1.outstanding = 0 := by
        rw [outstanding, hSock.1]
        exact hStaged.none_of_idle hIdle
      refine ⟨hUnlock.filled hFilled, hFlown, fun _ => .inl ?_,
        fun hSome => absurd hNone hSome⟩
      rcases hParked with hParked | ⟨hMore, hLength⟩
      · exact hParked
      · rcases hNothing with hMemory | hEmpty
        · exact absurd (hMemory.symm.trans hMore) (by decide)
        · exact absurd hEmpty hLength
    · refine ⟨⟨⟨hFilled.wblen_le, hFilled.inside,
        hFilled.copied⟩, hFilled.mark_le, hFilled.pending⟩,
        hFlown, ?_, fun _ => hSome.2⟩
      intro hIdle
      cases hIdle

theorem pass_staged
    (hFits : ∀ send ∈ sends, send.Fits)
    (hStaged : s.Staged mark)
    (hPass : Pass stirs sends s s') :
    s'.Staged mark := by
  rcases hPass.sameOutbound_or_write with hSame | hWrite
  · exact hSame.staged hStaged
  · exact write_staged hFits hStaged hWrite

theorem passes_staged
    (hFits : ∀ send ∈ sends, send.Fits)
    (hStaged : s.Staged mark)
    (hPasses : Passes stirs sends s s') :
    s'.Staged mark := by
  induction hPasses with
  | refl => exact hStaged
  | tail _ hPass ih => exact pass_staged hFits ih hPass

end HttpTlsSession

end Network

------------------------------------------------------------
-- Steps
------------------------------------------------------------

namespace Network

namespace HttpTlsSession

variable {s s' : HttpTlsSession}
variable {mark : Nat}

/- The handler of a write moves the mark if it succeeds. -/
theorem writeHandler_staged
    (hStaged : s.Staged mark)
    (hNone : s.outstanding = 0)
    {ec : ErrorCode}
    {n : Nat}
    {sends : List Send}
    (hFits : ∀ send ∈ sends, send.Fits)
    (hOpen : ec.failed = false → s.zeroStreamClosed = false)
    (hHandler : s.writeHandler ec n sends = some s') :
    s'.Staged
      (if ec.failed then mark
        else s.copiedChunks.length) := by
  unfold writeHandler at hHandler
  cases hFailed : ec.failed with
  | true =>
      rw [hFailed, if_pos rfl] at hHandler
      rw [← Option.some.inj hHandler]
      exact s.stop_quiet.toSameOutbound.staged hStaged
  | false =>
      rw [hFailed, hOpen hFailed] at hHandler
      refine write_staged (s := s.clearBuffer) hFits ?_
        hHandler
      have hRest :
          s.clearBuffer.copiedChunks.drop
              s.copiedChunks.length = [] :=
        List.drop_length
      have hLength := hStaged.wblen_le
      constructor
      · constructor
        · constructor
          · exact Nat.zero_le _
          · simp only [clearBuffer, hStaged.inside]
            simpa using hLength
          · rw [if_neg Bool.false_ne_true, hRest]
            rfl
        · exact le_refl _
        · exact hStaged.pending
      · exact flown_of_none hNone
      · exact fun _ => .inr rfl
      · exact fun hSome => absurd hNone hSome

theorem stepMarked_staged
    {marked next : HttpTlsSession × Nat}
    {event : FittedEvent}
    (hStaged : marked.1.Staged marked.2)
    (hClears : ClearsBuffer marked event)
    (hStep : stepMarked marked event = some next) :
    next.1.Staged next.2 := by
  rcases Transition.observed_eq_some_iff.mp hStep with
    ⟨hNext, hMark⟩
  rw [hMark, markOf]
  cases hCompletes : marked.1.completion? event.1 with
  | none =>
      exact passes_staged event.2 hStaged
        (stepQueued_passes hCompletes hNext)
  | some ec =>
      rcases stepQueued_of_completion hCompletes with
        ⟨sock, n, hOne, hHandler⟩
      rw [hHandler] at hNext
      have hNone :
          { marked.1 with sock := sock }.outstanding = 0 :=
        Nat.le_zero.mp (Nat.le_of_succ_le_succ
          (hOne.trans_le hStaged.single))
      have hTaken :
          { marked.1 with sock := sock }.Staged marked.2 :=
        ⟨⟨⟨hStaged.wblen_le, hStaged.inside,
          hStaged.copied⟩, hStaged.mark_le,
          hStaged.pending⟩, flown_of_none hNone,
          hStaged.parked, fun hSome => absurd hNone hSome⟩
      exact writeHandler_staged hTaken hNone event.2
        (hClears ec hCompletes) hNext

/- A marked buffer that keeps its bound holds nothing. -/
theorem Bounded.wblen_eq_zero
    (hBounded : s.Bounded s.copiedChunks.length) :
    s.wblen = 0 := by
  have hEmpty := congrArg List.length hBounded.copied
  simp only [List.drop_length, List.flatten_nil,
    List.length_take, s.wb.length_bytes,
    List.length_nil] at hEmpty
  unfold bufferSize at hEmpty
  omega

/- A stop leaves the buffer as it is. -/
theorem bounded_of_stop
    (hBounded : s.stop.Bounded mark) :
    s.Bounded mark := by
  have hStop := s.stop_quiet
  have hRest : s.stop.copiedChunks = s.copiedChunks := by
    rw [copiedChunks, hStop.dataPending, hStop.sent]
    rfl
  refine ⟨?_, ?_, ?_⟩
  · rw [← hStop.wblen]
    exact hBounded.wblen_le
  · rw [← hStop.overrun]
    exact hBounded.inside
  · rw [← hStop.wb, ← hStop.wblen, ← hRest]
    exact hBounded.copied

/- A full buffer that has not been cleared is not bounded. -/
theorem leavesBounded_iff
    {marked : HttpTlsSession × Nat}
    (hStaged : marked.1.Staged marked.2)
    (event : FittedEvent) :
    LeavesBounded marked event ↔
      ClearsBuffer marked event := by
  constructor
  · intro hLeaves ec hCompletes hSuccess
    by_contra hClosed
    rw [Bool.not_eq_false] at hClosed
    rcases stepQueued_of_completion hCompletes with
      ⟨sock, n, hOne, hHandler⟩
    have hStopped :
        { marked.1 with sock := sock }.writeHandler ec n
            event.1.sends =
          some { marked.1 with sock := sock }.stop := by
      unfold writeHandler
      rw [hSuccess, if_neg Bool.false_ne_true]
      exact if_pos hClosed
    rw [hStopped] at hHandler
    have hMark :
        markOf marked.2 marked.1 event
            { marked.1 with sock := sock }.stop =
          marked.1.copiedChunks.length := by
      simp [markOf, hCompletes, hSuccess]
    have hBounded := hLeaves
      ({ marked.1 with sock := sock }.stop,
        marked.1.copiedChunks.length)
      (Transition.observed_eq_some_iff.mpr
        ⟨hHandler, hMark.symm⟩)
    have hEmpty : marked.1.wblen = 0 :=
      (bounded_of_stop hBounded).wblen_eq_zero
    have hSome : marked.1.outstanding ≠ 0 := by
      rw [← hOne]
      exact Nat.succ_ne_zero _
    exact hStaged.nonempty hSome hEmpty
  · intro hClears next hStep
    exact (stepMarked_staged hStaged hClears
      hStep).toBounded

end HttpTlsSession

end Network

------------------------------------------------------------
-- Runs
------------------------------------------------------------

namespace Network

namespace HttpTlsSession

/- A new session is bounded if nothing seems to be staged. -/
theorem create_bounded_iff
    (host port : Bytes)
    (garbage : Garbage) :
    (create host port garbage).Bounded 0 ↔
      garbage.wblen = 0 := by
  have hBytes := garbage.wb.length_bytes
  constructor
  · intro hBounded
    have hNone :
        garbage.wb.bytes.take garbage.wblen = [] :=
      hBounded.copied
    have hLength := congrArg List.length hNone
    rw [List.length_take, List.length_nil] at hLength
    unfold bufferSize at hBytes
    omega
  · intro hEmpty
    constructor
    · exact hEmpty.trans_le (Nat.zero_le _)
    · rfl
    · have hNone :
          garbage.wb.bytes.take garbage.wblen = [] := by
        rw [hEmpty, List.take_zero]
      exact hNone

/-
  The buffer of a new session is bounded in every state of a
  run exactly when `wblen_` happens to be zero at first and no
  write completes without an error while stream zero is
  closed.
-/
theorem bounded_along_iff
    (host port : Bytes)
    (garbage : Garbage)
    (events : List FittedEvent) :
    ((create host port garbage).Bounded 0 ∧
        Transition.Along stepMarked LeavesBounded
          (create host port garbage, 0) events) ↔
      (garbage.wblen = 0 ∧
        Transition.Along stepMarked ClearsBuffer
          (create host port garbage, 0) events) := by
  rw [create_bounded_iff]
  apply and_congr_right
  intro hEmpty
  apply Transition.along_congr
    (I := fun marked => marked.1.Staged marked.2)
  · intro marked event hStaged
    exact leavesBounded_iff hStaged event
  · intro marked event next hStaged hLeaves hStep
    exact stepMarked_staged hStaged
      ((leavesBounded_iff hStaged event).mp hLeaves) hStep
  · constructor
    · constructor
      · exact (create_bounded_iff host port garbage).mpr
          hEmpty
      · exact Nat.zero_le _
      · exact nofun
    · exact flown_of_none rfl
    · exact fun _ => .inl rfl
    · exact fun hSome => absurd rfl hSome

/- A `wblen_` beyond the buffer, as no initializer sets it. -/
def staleLength : Garbage :=
  { zeroGarbage with wblen := 70000 }

/- A connection, whose preface is then written. -/
def prefaceWritten : List FittedEvent :=
  [⟨.session (.startResolve h2Connection), by
      decide⟩,
    ⟨.session (.writeDone {} 70000 []), by decide⟩]

/- The handler of the first write zeroes past the buffer. -/
theorem stale_length_overruns :
    ¬ ((create (ascii "a") (ascii "443")
            staleLength).Bounded 0 ∧
        Transition.Along stepMarked LeavesBounded
          (create (ascii "a") (ascii "443") staleLength, 0)
          prefaceWritten) := by
  rintro ⟨_, hAlong⟩
  have hOverrun :
      (Transition.exec stepMarked
          (create (ascii "a") (ascii "443") staleLength, 0)
          prefaceWritten).map (·.1.overrun) = some true := by
    decide +kernel
  rcases Option.map_eq_some_iff.mp hOverrun with
    ⟨last, hRun, hLast⟩
  rcases Transition.exec_cons_eq_some_iff.mp hRun with
    ⟨first, hFirst, hRest⟩
  rcases Transition.exec_cons_eq_some_iff.mp hRest with
    ⟨second, hSecond, hEnd⟩
  have hSame : second = last := Option.some.inj hEnd
  have hBounded :=
    (hAlong.2 first hFirst).1 second hSecond
  rw [hSame] at hBounded
  exact absurd (hLast.symm.trans hBounded.inside) (by decide)

end HttpTlsSession

end Network
