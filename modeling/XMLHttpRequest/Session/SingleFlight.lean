import XMLHttpRequest.Library.Transition
import XMLHttpRequest.Session.Queued

/-
  One write at a time, from a buffer that nobody touches.

  The flag `writing` is set for as long as a write is
  outstanding, whatever the write buffer held at first and
  however the connection ends.

  Key definitions include:
    * `Network.HttpTlsSession.Flown`
    * `Network.HttpTlsSession.SingleFlight`

  Key theorems include:
    * `Network.HttpTlsSession.passes_flown`
    * `Network.HttpTlsSession.stepQueued_flown`
    * `Network.HttpTlsSession.single_flight_along`
-/

------------------------------------------------------------
-- Writes in Flight
------------------------------------------------------------

namespace Network

namespace HttpTlsSession

/-
  A write is outstanding only while the flag is set, and it
  is of the bytes that the buffer holds.
-/
structure Flown (s : HttpTlsSession) : Prop where
  single : s.outstanding ≤ 1
  writing : s.outstanding ≠ 0 → s.writing = true
  content :
    ∀ data ∈ s.sock.writes,
      data = s.wb.bytes.take s.wblen

/- The buffer, and that a write of it is outstanding, stay. -/
structure SameFlight (s s' : HttpTlsSession) : Prop where
  outstanding : s'.outstanding = s.outstanding
  wb : s'.wb = s.wb
  wblen : s'.wblen = s.wblen

/-
  At most one write is outstanding, of what the buffer holds,
  and until its handler runs the buffer does not change.
-/
def SingleFlight
    (s : HttpTlsSession)
    (event : QueuedEvent) : Prop :=
  ∀ s', s.stepQueued event = some s' →
    s'.outstanding ≤ 1 ∧
      (∀ data ∈ s'.sock.writes,
        data = s'.wb.bytes.take s'.wblen) ∧
      (s.outstanding ≠ 0 → s.completion? event = none →
        SameFlight s s')

variable {s s' : HttpTlsSession}

theorem SameFlight.refl (s : HttpTlsSession) :
    SameFlight s s :=
  ⟨rfl, rfl, rfl⟩

theorem SameFlight.trans
    {s'' : HttpTlsSession}
    (hFirst : SameFlight s s')
    (hSecond : SameFlight s' s'') :
    SameFlight s s'' :=
  ⟨hSecond.outstanding.trans hFirst.outstanding,
    hSecond.wb.trans hFirst.wb,
    hSecond.wblen.trans hFirst.wblen⟩

theorem SameOutbound.sameFlight
    (hSame : SameOutbound s s') :
    SameFlight s s' :=
  ⟨hSame.outstanding, hSame.wb, hSame.wblen⟩

theorem SameOutbound.flown
    (hSame : SameOutbound s s')
    (hFlown : s.Flown) :
    s'.Flown where
  single := by
    rw [hSame.outstanding]
    exact hFlown.single
  writing := by
    rw [hSame.outstanding, hSame.writing]
    exact hFlown.writing
  content data hData := by
    rw [hSame.wb, hSame.wblen]
    exact hFlown.content data (hSame.writes data hData)

theorem writes_of_none
    (hNone : s.outstanding = 0) :
    s.sock.writes = [] := by
  unfold outstanding at hNone
  exact List.eq_nil_of_length_eq_zero (by omega)

theorem flown_of_none
    (hNone : s.outstanding = 0) :
    s.Flown where
  single := by omega
  writing := fun hSome => absurd hNone hSome
  content := by
    rw [writes_of_none hNone]
    exact nofun

/- A session without the flag has nothing outstanding. -/
theorem Flown.none_of_idle
    (hFlown : s.Flown)
    (hIdle : s.writing = false) :
    s.outstanding = 0 := by
  by_contra hSome
  exact absurd ((hFlown.writing hSome).symm.trans hIdle)
    (by decide)

end HttpTlsSession

end Network

------------------------------------------------------------
-- Passes
------------------------------------------------------------

namespace Network

namespace HttpTlsSession

variable {s s' : HttpTlsSession}
variable {stirs : Bool}
variable {sends : List Send}

/- Only an idle session starts a write. -/
theorem write_flown
    (hFlown : s.Flown)
    (hWrite : s.write sends = some s') :
    s'.Flown ∧ (s.outstanding ≠ 0 → SameFlight s s') := by
  rcases s.write_cases hWrite with
    ⟨_, rfl⟩ | ⟨_, hIdle, _, hEnd⟩
  · exact ⟨hFlown, fun _ => .refl _⟩
  · have hNone := hFlown.none_of_idle hIdle
    have hPumped :
        (s.pumped sends).1.outstanding = 0 := by
      rw [← hNone, outstanding, outstanding,
        (s.pumped_sock sends).1]
    refine ⟨?_, absurd hNone⟩
    rcases hEnd with ⟨_, rfl⟩ | ⟨_, rfl⟩
    · exact flown_of_none hPumped
    · have hWrites := writes_of_none hPumped
      unfold outstanding at hPumped
      constructor
      · simp only [outstanding, writeSocket, unlock,
          List.length_append, List.length_singleton]
        omega
      · exact fun _ => rfl
      · simp [writeSocket, unlock, hWrites]

theorem pass_flown
    (hFlown : s.Flown)
    (hPass : Pass stirs sends s s') :
    s'.Flown ∧ (s.outstanding ≠ 0 → SameFlight s s') := by
  rcases hPass.sameOutbound_or_write with hSame | hWrite
  · exact ⟨hSame.flown hFlown, fun _ => hSame.sameFlight⟩
  · exact write_flown hFlown hWrite

theorem passes_flown
    (hFlown : s.Flown)
    (hPasses : Passes stirs sends s s') :
    s'.Flown ∧ (s.outstanding ≠ 0 → SameFlight s s') := by
  induction hPasses with
  | refl => exact ⟨hFlown, fun _ => .refl s⟩
  | tail _ hPass ih =>
      rcases ih with ⟨hMiddle, hBefore⟩
      rcases pass_flown hMiddle hPass with ⟨hEnd, hAfter⟩
      refine ⟨hEnd, ?_⟩
      intro hSome
      have hFirst := hBefore hSome
      exact hFirst.trans
        (hAfter (hFirst.outstanding.symm ▸ hSome))

end HttpTlsSession

end Network

------------------------------------------------------------
-- Steps
------------------------------------------------------------

namespace Network

namespace HttpTlsSession

variable {s s' : HttpTlsSession}

/- A handler whose write was the only one. -/
theorem writeHandler_flown
    (hNone : s.outstanding = 0)
    {ec : ErrorCode}
    {n : Nat}
    {sends : List Send}
    (hHandler : s.writeHandler ec n sends = some s') :
    s'.Flown := by
  have hFlown := flown_of_none hNone
  cases writeHandled_of_some hHandler with
  | stopped _ =>
      exact s.stop_quiet.toSameOutbound.flown hFlown
  | cleared _ _ hWrite =>
      have hCleared : s.clearBuffer.outstanding = 0 := hNone
      exact (write_flown (flown_of_none hCleared) hWrite).1

theorem stepQueued_flown
    (hFlown : s.Flown)
    {event : QueuedEvent}
    (hStep : s.stepQueued event = some s') :
    s'.Flown ∧
      (s.outstanding ≠ 0 → s.completion? event = none →
        SameFlight s s') := by
  cases hCompletes : s.completion? event with
  | none =>
      have hPassed := passes_flown hFlown
        (stepQueued_passes hCompletes hStep)
      exact ⟨hPassed.1, fun hSome _ => hPassed.2 hSome⟩
  | some ec =>
      rcases stepQueued_of_completion hCompletes with
        ⟨sock, n, hOne, hHandler⟩
      rw [hHandler] at hStep
      have hSingle := hFlown.single
      refine ⟨writeHandler_flown ?_ hStep, nofun⟩
      omega

/-
  Every step of every run of a new session keeps to one write
  at a time, whatever its buffer held at first.
-/
theorem single_flight_along
    (host port : Bytes)
    (garbage : Garbage)
    (events : List QueuedEvent) :
    Transition.Along stepQueued SingleFlight
      (create host port garbage) events := by
  refine Transition.along_of_step (I := Flown) ?_ ?_
    (flown_of_none rfl) (Transition.along_true _ events)
  · intro s event hFlown _ s' hStep
    have hAfter := stepQueued_flown hFlown hStep
    exact ⟨hAfter.1.single, hAfter.1.content, hAfter.2⟩
  · intro s event s' hFlown _ hStep
    exact (stepQueued_flown hFlown hStep).1

end HttpTlsSession

end Network
