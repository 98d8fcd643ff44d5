import XMLHttpRequest.Library.Monitor
import XMLHttpRequest.Session.SingleFlight

/-
  The end of all writing.

  A write that completes with an error, or while stream zero
  is closed, stops the session and leaves the flag `writing`
  set.  No other write is under way then whose handler could
  clear it.  So nothing is ever written again: a session that
  connects after that takes requests and never sends them.

  Key definitions include:
    * `Network.HttpTlsSession.endsWriting`
    * `Network.HttpTlsSession.stepEnded`
    * `Network.HttpTlsSession.Silenced`
    * `Network.HttpTlsSession.SaysNothing`

  Key theorems include:
    * `Network.HttpTlsSession.passes_silenced`
    * `Network.HttpTlsSession.says_nothing_along`
-/

------------------------------------------------------------
-- Silence
------------------------------------------------------------

namespace Network

namespace HttpTlsSession

/-
  The event completes a write after which the handler stops
  the session.
-/
def endsWriting
    (s : HttpTlsSession)
    (event : QueuedEvent) : Bool :=
  match s.completion? event with
  | some ec => ec.failed || s.zeroStreamClosed
  | none => false

/- A session, and whether such a write has completed. -/
def stepEnded :
    HttpTlsSession × Bool →
      QueuedEvent → Option (HttpTlsSession × Bool) :=
  Transition.observed stepQueued
    fun ended s event _ => ended || s.endsWriting event

/- A write is said to be under way, and none is. -/
structure Silenced (s : HttpTlsSession) : Prop where
  writing : s.writing = true
  none : s.outstanding = 0

/-
  Once such a write has completed no step starts a write or
  takes a chunk from nghttp2.
-/
def SaysNothing
    (watched : HttpTlsSession × Bool)
    (event : QueuedEvent) : Prop :=
  watched.2 = true →
    ∀ s', watched.1.stepQueued event = some s' →
      s'.sock.writes = [] ∧
        s'.nghttp2.sent = watched.1.nghttp2.sent

variable {s s' : HttpTlsSession}
variable {stirs : Bool}
variable {sends : List Send}

theorem passes_silenced
    (hSilenced : s.Silenced)
    (hPasses : Passes stirs sends s s') :
    s'.Silenced ∧ s'.nghttp2.sent = s.nghttp2.sent := by
  induction hPasses with
  | refl => exact ⟨hSilenced, rfl⟩
  | tail _ hPass ih =>
      rcases ih with ⟨hMiddle, hSent⟩
      rcases hPass.sameOutbound_or_write with hSame | hWrite
      · refine ⟨⟨?_, ?_⟩, hSame.sent.trans hSent⟩
        · exact hSame.writing.trans hMiddle.writing
        · exact hSame.outstanding.trans hMiddle.none
      · rw [write_of_writing _ hMiddle.writing] at hWrite
        rw [← Option.some.inj hWrite]
        exact ⟨hMiddle, hSent⟩

/- Nothing is under way, so no handler clears the flag. -/
theorem stepQueued_silenced
    (hSilenced : s.Silenced)
    {event : QueuedEvent}
    (hStep : s.stepQueued event = some s') :
    s'.Silenced ∧ s'.nghttp2.sent = s.nghttp2.sent := by
  have hNone : s.completion? event = none := by
    cases hCompletes : s.completion? event with
    | none => rfl
    | some ec =>
        rcases stepQueued_of_completion hCompletes with
          ⟨_, _, hOne, _⟩
        rw [hSilenced.none] at hOne
        cases hOne
  exact passes_silenced hSilenced
    (stepQueued_passes hNone hStep)

/- The one write under way has ended, and the flag stays. -/
theorem silenced_of_endsWriting
    (hFlown : s.Flown)
    {event : QueuedEvent}
    (hEnds : s.endsWriting event = true)
    (hStep : s.stepQueued event = some s') :
    s'.Silenced := by
  unfold endsWriting at hEnds
  split at hEnds
  · rename_i ec hCompletes
    rcases stepQueued_of_completion hCompletes with
      ⟨sock, n, hOne, hHandler⟩
    rw [hHandler] at hStep
    have hStopped :
        s' = { s with sock := sock }.stop := by
      cases writeHandled_of_some hStep with
      | stopped _ => rfl
      | cleared hSuccess hOpen _ =>
          have hOpen : s.zeroStreamClosed = false := hOpen
          simp [hSuccess, hOpen] at hEnds
    have hQuiet := stop_quiet { s with sock := sock }
    have hSingle := hFlown.single
    rw [hStopped]
    constructor
    · exact hQuiet.writing.trans
        (hFlown.writing (by omega))
    · rw [hQuiet.outstanding]
      omega
  · cases hEnds

/-
  In every run of a new session nothing is written any more
  after a write that has failed or has found stream zero
  closed, whatever is connected, submitted or received.
-/
theorem says_nothing_along
    (host port : Bytes)
    (garbage : Garbage)
    (events : List QueuedEvent) :
    Transition.Along stepEnded SaysNothing
      (create host port garbage, false) events := by
  refine Transition.along_of_step
    (I := fun watched =>
      watched.1.Flown ∧
        (watched.2 = true → watched.1.Silenced))
    ?_ ?_ ⟨flown_of_none rfl, nofun⟩
    (Transition.along_true _ events)
  · intro watched event hInv _ hEnded s' hStep
    have hAfter := stepQueued_silenced (hInv.2 hEnded) hStep
    exact ⟨writes_of_none hAfter.1.none, hAfter.2⟩
  · intro watched event next hInv _ hNext
    rcases Transition.observed_eq_some_iff.mp hNext with
      ⟨hStep, hMemory⟩
    refine ⟨(stepQueued_flown hInv.1 hStep).1, ?_⟩
    intro hEnded
    rw [hMemory, Bool.or_eq_true] at hEnded
    rcases hEnded with hBefore | hNow
    · exact (stepQueued_silenced (hInv.2 hBefore) hStep).1
    · exact silenced_of_endsWriting hInv.1 hNow hStep

end HttpTlsSession

end Network
