import XMLHttpRequest.Library.Monitor
import XMLHttpRequest.Session.StreamView

/-
  Whether the stream map forgets the streams that were closed.

  A frame that is sent for a stream without an entry makes
  one.  That is meant for stream zero, and happens for every
  other stream as well.

  Key definitions include:
    * `Network.CallbackState.Forgets`
    * `Network.StreamEvent.readmits`

  Key theorems include:
    * `Network.CallbackState.leavesForgotten_iff`
    * `Network.CallbackState.forgets_along_iff`
-/

------------------------------------------------------------
-- Closed Streams
------------------------------------------------------------

namespace Network

namespace StreamEvent

/- A begin-headers callback for stream `id`. -/
def beginsHeaders (id : StreamId) : StreamEvent → Bool
  | callback (.beginHeaders frame) => frame.headersTarget = id
  | _ => false

/-
  A frame is sent for stream `id`, or `submit` registers it.
-/
def readmits (id : StreamId) : StreamEvent → Bool
  | callback (.beforeFrameSend frame) => frame.streamId = id
  | registered opened => opened = id
  | _ => false

end StreamEvent

/-
  The streams whose close has been reported, and for which
  begin-headers has not been called since.
-/
def closedSince
    (closed : StreamId → Bool)
    (event : StreamEvent) : StreamId → Bool :=
  fun id =>
    event = .close id ||
      closed id && ! event.beginsHeaders id

namespace CallbackState

/- A session beside the streams that were closed. -/
def stepClosed :
    CallbackState × (StreamId → Bool) → StreamEvent →
      Option (CallbackState × (StreamId → Bool)) :=
  Transition.observed (Transition.total step)
    fun closed _ event _ => closedSince closed event

/- No entry is left of a closed stream, save of stream zero. -/
def Forgets
    (watched : CallbackState × (StreamId → Bool)) : Prop :=
  ∀ id, id ≠ 0 → watched.2 id = true →
    watched.1.findStream id = none

/- The step leaves no entry of a closed stream. -/
def LeavesForgotten
    (watched : CallbackState × (StreamId → Bool))
    (event : StreamEvent) : Prop :=
  ∀ next, stepClosed watched event = some next →
    Forgets next

/-
  No frame is sent for a closed stream, and no request is
  registered under its identifier.
-/
def LetsRest
    (watched : CallbackState × (StreamId → Bool))
    (event : StreamEvent) : Prop :=
  ∀ id, id ≠ 0 → watched.2 id = true →
    event.readmits id = false

end CallbackState

end Network

------------------------------------------------------------
-- Steps
------------------------------------------------------------

namespace Network

namespace StreamEvent

theorem beginsHeaders_of_readmits
    {id : StreamId}
    {event : StreamEvent}
    (hReadmits : event.readmits id = true) :
    event.beginsHeaders id = false := by
  unfold readmits at hReadmits
  split at hReadmits
  · rfl
  · rfl
  · cases hReadmits

/- A readmitted stream has an entry. -/
theorem effect_isSome_of_readmits
    {id : StreamId}
    {event : StreamEvent}
    (hReadmits : event.readmits id = true)
    (type : Bytes)
    (entry : Option Stream) :
    id = event.target ∧
      (event.effect type entry).isSome = true := by
  unfold readmits at hReadmits
  split at hReadmits
  · exact ⟨(of_decide_eq_true hReadmits).symm, rfl⟩
  · exact ⟨(of_decide_eq_true hReadmits).symm, rfl⟩
  · cases hReadmits

/- What makes an entry begins headers or readmits. -/
theorem effect_none
    {event : StreamEvent}
    (hHeaders : event.beginsHeaders event.target = false)
    (hRests : event.readmits event.target = false)
    (type : Bytes) :
    event.effect type none = none := by
  cases event with
  | registered id => simp [readmits, target] at hRests
  | callback c =>
      cases c with
      | beginHeaders frame =>
          simp [beginsHeaders, target] at hHeaders
      | header frame name value noIndex =>
          simp only [effect]
          split
          · split <;> rfl
          · rfl
          · rfl
      | frameRecv frame => rfl
      | dataChunkRecv id data => rfl
      | streamClose id => rfl
      | beforeFrameSend frame =>
          simp [readmits, target] at hRests

end StreamEvent

namespace CallbackState

variable {watched : CallbackState × (StreamId → Bool)}

theorem leavesForgotten_def (event : StreamEvent) :
    LeavesForgotten watched event ↔
      Forgets
        (watched.1.step event,
          closedSince watched.2 event) := by
  unfold LeavesForgotten stepClosed Transition.observed
    Transition.total
  simp

/- Entries come back only by such an event. -/
theorem leavesForgotten_iff
    (hForgets : Forgets watched)
    (event : StreamEvent) :
    LeavesForgotten watched event ↔
      LetsRest watched event := by
  rw [leavesForgotten_def]
  constructor
  · intro hAfter id hNonzero hClosed
    by_contra hReadmits
    rw [Bool.not_eq_false] at hReadmits
    have hEntry := StreamEvent.effect_isSome_of_readmits
      hReadmits watched.1.overrideMimeType
      (watched.1.findStream id)
    have hStill : closedSince watched.2 event id = true := by
      simp [closedSince, hClosed,
        StreamEvent.beginsHeaders_of_readmits hReadmits]
    have hNone := hAfter id hNonzero hStill
    rw [findStream_step, if_pos hEntry.1] at hNone
    rw [hNone] at hEntry
    cases hEntry.2
  · intro hRests id hNonzero hClosed
    simp only [closedSince, Bool.or_eq_true,
      decide_eq_true_eq, Bool.and_eq_true,
      Bool.not_eq_true'] at hClosed
    rw [findStream_step]
    rcases hClosed with rfl | ⟨hBefore, hHeaders⟩
    · exact if_pos rfl
    · have hNone := hForgets id hNonzero hBefore
      have hReadmits := hRests id hNonzero hBefore
      split
      · rename_i hTarget
        subst hTarget
        rw [hNone]
        exact StreamEvent.effect_none hHeaders hReadmits _
      · exact hNone

end CallbackState

end Network

------------------------------------------------------------
-- Runs
------------------------------------------------------------

namespace Network

namespace CallbackState

/-
  In every state of a run no entry is left of a closed stream
  exactly when no frame is sent for one and none is registered
  again.
-/
theorem forgets_along_iff
    (s : CallbackState)
    (events : List StreamEvent) :
    Transition.Along stepClosed LeavesForgotten
        (s, fun _ => false) events ↔
      Transition.Along stepClosed LetsRest
        (s, fun _ => false) events := by
  apply Transition.along_congr (I := Forgets)
  · intro watched event hForgets
    exact leavesForgotten_iff hForgets event
  · intro watched event next _ hLeaves hStep
    exact hLeaves next hStep
  · exact nofun

/- A stream is closed, and RST_STREAM sent for it. -/
def resetAfterClose : List StreamEvent :=
  [.registered 1, .close 1,
    .callback (.beforeFrameSend
      { streamId := 1, type := .rstStream })]

/- The entry is back, with a state of `Open`. -/
theorem reset_readmits_closed :
    ¬ Transition.Along stepClosed LeavesForgotten
      ({}, fun _ => false) resetAfterClose := by
  intro hAlong
  have hRun :
      Transition.exec stepClosed ({}, fun _ => false)
          (resetAfterClose.take 2) =
        some
          (run {} (resetAfterClose.take 2),
            closedSince
              (closedSince (fun _ => false) (.registered 1))
              (.close 1)) := rfl
  have hLast :
      LeavesForgotten
        (run {} (resetAfterClose.take 2),
          closedSince
            (closedSince (fun _ => false) (.registered 1))
            (.close 1))
        (.callback (.beforeFrameSend
          { streamId := 1, type := .rstStream })) :=
    Transition.Along.last hAlong hRun
  exact absurd (hLast _ rfl 1 (by decide) (by decide))
    (by decide)

end CallbackState

end Network
