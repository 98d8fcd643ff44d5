import XMLHttpRequest.Library.Monitor
import XMLHttpRequest.Session.StreamView
import Mathlib.Logic.Relation

/-
  The states of a stream and the state diagram of
  RFC 7540, section 5.1.

  The callbacks know the diagram only in part.  A promise is
  recorded on the stream that it is received on, too, and the
  end of a stream always half-closes the remote side.

  Key definitions include:
    * `Network.StreamState.Arrow`
    * `Network.StreamState.Advances`
    * `Network.CallbackState.FollowsLifecycle`
    * `Network.CallbackState.KeepsLifecycle`

  Key theorems include:
    * `Network.StreamState.advances_iff`
    * `Network.CallbackState.followsLifecycle_iff`
    * `Network.CallbackState.lifecycle_along_iff`
-/

------------------------------------------------------------
-- The State Diagram
------------------------------------------------------------

namespace Network

namespace StreamState

/- The arrows of the state diagram. -/
inductive Arrow : StreamState → StreamState → Prop
  | sendPromise : Arrow .idle .reservedLocal
  | recvPromise : Arrow .idle .reservedRemote
  | headers : Arrow .idle .«open»
  | sendReservedHeaders : Arrow .reservedLocal .halfClosedRemote
  | recvReservedHeaders : Arrow .reservedRemote .halfClosedLocal
  | resetReservedLocal : Arrow .reservedLocal .closed
  | resetReservedRemote : Arrow .reservedRemote .closed
  | sendEndStream : Arrow .«open» .halfClosedLocal
  | recvEndStream : Arrow .«open» .halfClosedRemote
  | reset : Arrow .«open» .closed
  | endLocal : Arrow .halfClosedRemote .closed
  | endRemote : Arrow .halfClosedLocal .closed

/- Several arrows at once, or none. -/
def Advances : StreamState → StreamState → Prop :=
  Relation.ReflTransGen Arrow

/- The states that the diagram leads to. -/
def leadsTo : StreamState → StreamState → Bool
  | .idle, _ => true
  | .reservedLocal, state =>
      [.reservedLocal, .halfClosedRemote, .closed].contains
        state
  | .reservedRemote, state =>
      [.reservedRemote, .halfClosedLocal, .closed].contains
        state
  | .«open», state =>
      [.«open», .halfClosedLocal, .halfClosedRemote,
        .closed].contains state
  | .halfClosedLocal, state =>
      [.halfClosedLocal, .closed].contains state
  | .halfClosedRemote, state =>
      [.halfClosedRemote, .closed].contains state
  | .closed, state => [.closed].contains state

theorem leadsTo_of_arrow
    {first second third : StreamState}
    (hArrow : Arrow second third)
    (hLeads : first.leadsTo second = true) :
    first.leadsTo third = true := by
  cases hArrow <;> cases first <;>
    first
    | rfl
    | exact absurd hLeads (by decide)

theorem advances_iff (first last : StreamState) :
    Advances first last ↔ first.leadsTo last = true := by
  constructor
  · intro hAdvances
    induction hAdvances with
    | refl => cases first <;> rfl
    | tail _ hArrow ih => exact leadsTo_of_arrow hArrow ih
  · intro hLeads
    -- no state is more than two arrows away
    cases first <;> cases last <;>
      first
      | exact .refl
      | exact .single (by constructor)
      | exact .head .headers (.single (by constructor))
      | exact absurd hLeads (by decide)

instance (first last : StreamState) :
    Decidable (Advances first last) :=
  decidable_of_iff _ (advances_iff first last).symm

theorem advances_closed (state : StreamState) :
    Advances state .closed := by
  rw [advances_iff]
  cases state <;> rfl

theorem advances_reservedRemote_iff
    {state : StreamState} :
    Advances state .reservedRemote ↔
      state = .idle ∨ state = .reservedRemote := by
  rw [advances_iff]
  cases state <;> decide

end StreamState

end Network

------------------------------------------------------------
-- Changes of State
------------------------------------------------------------

namespace Network

namespace StreamEvent

/- The event is about a promise of stream `id`. -/
def promises (id : StreamId) : StreamEvent → Bool
  | callback (.header frame _ _ _) =>
      frame.type = .pushPromise &&
        frame.promisedStreamId = id
  | callback (.frameRecv frame) =>
      frame.type = .pushPromise &&
        frame.promisedStreamId = id
  | _ => false

end StreamEvent

/-
  The frame is the last one of the peer on the stream: DATA,
  or HEADERS that the callback takes for a final response.
-/
def Frame.endsRemote (frame : Frame) (strm : Stream) : Bool :=
  match frame.type with
  | .data => frame.endStream
  | .headers =>
      frame.endStream && ! decide (frame.cat = .headers) &&
        ! strm.expectFinalResponse
  | _ => false

namespace CallbackState

variable (s : CallbackState)

/- A stream without an entry has not left `Idle`. -/
def stateOf (id : StreamId) : StreamState :=
  ((s.findStream id).map (·.state)).getD .idle

/-
  The state to which an event brings a stream.  A stream that
  loses its entry has been set to `Closed`.
-/
def stateAfter
    (event : StreamEvent)
    (id : StreamId) : StreamState :=
  ((s.step event).findStream id).elim
    ((s.findStream id).elim .idle fun _ => .closed)
    (·.state)

/-
  Every stream follows the state diagram, and becomes
  `ReservedRemote` only when it is promised.
-/
def FollowsLifecycle (event : StreamEvent) : Prop :=
  ∀ id,
    (s.stateOf id).Advances (s.stateAfter event id) ∧
      (s.stateAfter event id = .reservedRemote →
        s.stateOf id = .reservedRemote ∨
          event.promises id = true)

/-
  A promise is received on a stream that is `Idle` or promised
  itself, and a stream that the peer ends is not promised,
  half-closed on this side or closed.
-/
def KeepsLifecycle : StreamEvent → Prop
  | .callback (.frameRecv frame) =>
      ∀ strm, s.findStream frame.streamId = some strm →
        (frame.type = .pushPromise →
          strm.state = .idle ∨
            strm.state = .reservedRemote) ∧
        (frame.endsRemote strm = true →
          strm.state ≠ .reservedRemote ∧
            strm.state ≠ .halfClosedLocal ∧
            strm.state ≠ .closed)
  | _ => True

variable {s}

theorem stateOf_of_some
    {id : StreamId}
    {strm : Stream}
    (hFind : s.findStream id = some strm) :
    s.stateOf id = strm.state := by
  simp [stateOf, hFind]

theorem stateOf_of_none
    {id : StreamId}
    (hFind : s.findStream id = none) :
    s.stateOf id = .idle := by
  simp [stateOf, hFind]

/- An event moves no stream but its target. -/
theorem stateAfter_of_ne
    {event : StreamEvent}
    {id : StreamId}
    (hOther : id ≠ event.target) :
    s.stateAfter event id = s.stateOf id := by
  unfold stateAfter stateOf
  rw [findStream_step, if_neg hOther]
  cases s.findStream id <;> rfl

theorem stateAfter_target (event : StreamEvent) :
    s.stateAfter event event.target =
      (event.effect s.overrideMimeType
          (s.findStream event.target)).elim
        ((s.findStream event.target).elim .idle
          fun _ => .closed)
        (·.state) := by
  unfold stateAfter
  rw [findStream_step, if_pos rfl]

/- It is enough to look at the target of an event. -/
theorem followsLifecycle_iff_target (event : StreamEvent) :
    s.FollowsLifecycle event ↔
      (s.stateOf event.target).Advances
          (s.stateAfter event event.target) ∧
        (s.stateAfter event event.target = .reservedRemote →
          s.stateOf event.target = .reservedRemote ∨
            event.promises event.target = true) := by
  constructor
  · intro hFollows
    exact hFollows event.target
  · intro hTarget id
    by_cases hId : id = event.target
    · exact hId ▸ hTarget
    · rw [stateAfter_of_ne hId]
      exact ⟨.refl, .inl⟩

end CallbackState

end Network

------------------------------------------------------------
-- Steps
------------------------------------------------------------

namespace Network

/- Sending a frame closes a stream at most. -/
theorem Stream.processOutgoingFrame_state
    (strm : Stream)
    (frame : Frame) :
    (strm.processOutgoingFrame frame).state = strm.state ∨
      (strm.processOutgoingFrame frame).state = .closed := by
  unfold Stream.processOutgoingFrame
  split
  · exact .inl rfl
  · exact .inr rfl
  · exact .inl rfl

namespace CallbackState

variable {s : CallbackState}

/-
  The state that a received frame gives to a stream follows
  the diagram unless it is a misplaced promise or end.
-/
theorem receivedState_advances_iff
    (frame : Frame)
    (strm : Stream) :
    (strm.state.Advances (receivedState frame strm) ∧
        (receivedState frame strm = .reservedRemote →
          strm.state = .reservedRemote)) ↔
      (frame.type = .pushPromise →
          strm.state = .idle ∨
            strm.state = .reservedRemote) ∧
        (frame.endsRemote strm = true →
          strm.state ≠ .reservedRemote ∧
            strm.state ≠ .halfClosedLocal ∧
            strm.state ≠ .closed) := by
  rw [StreamState.advances_iff]
  unfold receivedState Frame.endsRemote
  cases frame.type with
  | data =>
      dsimp only
      cases frame.endStream <;> cases strm.state <;> decide
  | headers =>
      dsimp only
      -- only the three flags together end a stream
      generalize decide (frame.cat = .headers) = trailer
      cases frame.endStream <;>
        cases strm.expectFinalResponse <;>
        cases trailer <;> cases strm.state <;> decide
  | pushPromise =>
      dsimp only
      cases strm.state <;> decide
  | _ =>
      dsimp only
      cases strm.state <;> decide

/- A frame is received on a stream reserved before. -/
theorem reserved_of_receivedState
    {frame : Frame}
    {strm : Stream}
    (hAdvances :
      strm.state.Advances (receivedState frame strm))
    (hReserved :
      receivedState frame strm = .reservedRemote) :
    strm.state = .reservedRemote := by
  rw [hReserved,
    StreamState.advances_reservedRemote_iff] at hAdvances
  apply hAdvances.resolve_left
  intro hIdle
  unfold receivedState at hReserved
  simp only [hIdle] at hReserved
  split at hReserved
  · cases hReserved
  · repeat' split at hReserved
    all_goals cases hReserved
  · cases hReserved
  · cases hReserved
  · cases hReserved

/- Where an event leaves its target's state, nothing moves. -/
theorem followsLifecycle_of_same
    {event : StreamEvent}
    (hSame :
      s.stateAfter event event.target =
        s.stateOf event.target) :
    s.FollowsLifecycle event := by
  rw [followsLifecycle_iff_target, hSame]
  exact ⟨.refl, .inl⟩

/- An event that makes an entry where there is none. -/
theorem followsLifecycle_of_getD
    {event : StreamEvent}
    {strm : Stream}
    (hEffect :
      event.effect s.overrideMimeType
          (s.findStream event.target) =
        some ((s.findStream event.target).getD strm))
    (hIdle : strm.state = .idle) :
    s.FollowsLifecycle event := by
  apply followsLifecycle_of_same
  rw [stateAfter_target, hEffect]
  unfold stateOf
  cases s.findStream event.target with
  | none => exact hIdle
  | some old => rfl

theorem beforeFrameSend_followsLifecycle (frame : Frame) :
    s.FollowsLifecycle
      (.callback (.beforeFrameSend frame)) := by
  rw [followsLifecycle_iff_target, stateAfter_target]
  simp only [StreamEvent.target, StreamEvent.effect,
    Option.elim_some]
  cases hFind : s.findStream frame.streamId with
  | none =>
      rw [stateOf_of_none hFind, Option.getD_none]
      rcases Stream.processOutgoingFrame_state
          { Stream.create frame.streamId with
            state := .«open» } frame with
        hOpen | hClosed
      · rw [hOpen]
        exact ⟨.single .headers, fun h => by cases h⟩
      · rw [hClosed]
        exact ⟨StreamState.advances_closed _,
          fun h => by cases h⟩
  | some strm =>
      rw [stateOf_of_some hFind, Option.getD_some]
      rcases strm.processOutgoingFrame_state frame with
        hSame | hClosed
      · rw [hSame]
        exact ⟨.refl, .inl⟩
      · rw [hClosed]
        exact ⟨StreamState.advances_closed _,
          fun h => by cases h⟩

theorem streamClose_followsLifecycle (id : StreamId) :
    s.FollowsLifecycle (.close id) := by
  rw [followsLifecycle_iff_target, stateAfter_target]
  simp only [StreamEvent.target, StreamEvent.effect,
    Option.elim_none]
  cases hFind : s.findStream id with
  | none =>
      rw [stateOf_of_none hFind]
      exact ⟨.refl, fun h => by cases h⟩
  | some strm =>
      exact ⟨StreamState.advances_closed _,
        fun h => by cases h⟩

/- The fields of a promise make an idle stream reserved. -/
theorem header_followsLifecycle
    (frame : Frame)
    (name value : Bytes)
    (noIndex : Bool) :
    s.FollowsLifecycle
      (.callback (.header frame name value noIndex)) := by
  by_cases hPromise : frame.type = .pushPromise
  · rw [followsLifecycle_iff_target, stateAfter_target]
    simp only [StreamEvent.target, StreamEvent.effect,
      StreamEvent.promises, Frame.headersTarget, hPromise,
      ne_eq, not_true_eq_false, if_false]
    refine ⟨?_, fun _ => .inr (by simp)⟩
    cases hFind : s.findStream frame.promisedStreamId with
    | none =>
        rw [stateOf_of_none hFind]
        exact .refl
    | some strm =>
        rw [stateOf_of_some hFind]
        simp only [Option.map_some, Option.elim_some]
        split
        · rename_i hIdle
          exact hIdle ▸ .single .recvPromise
        · exact .refl
  · apply followsLifecycle_of_same
    rw [stateAfter_target]
    unfold stateOf
    simp only [StreamEvent.effect]
    split
    · -- a field changes the response of its stream at most
      split
      · cases s.findStream _ <;> rfl
      · cases s.findStream _ <;> rfl
    · exact absurd (by assumption) hPromise
    · cases s.findStream _ <;> rfl

/-
  Only a misplaced promise or end takes a stream off the
  diagram.
-/
theorem followsLifecycle_iff (event : StreamEvent) :
    s.FollowsLifecycle event ↔ s.KeepsLifecycle event := by
  cases event with
  | registered id =>
      exact iff_of_true (followsLifecycle_of_getD rfl rfl)
        trivial
  | callback c =>
      cases c with
      | beginHeaders frame =>
          exact iff_of_true
            (followsLifecycle_of_getD rfl rfl) trivial
      | header frame name value noIndex =>
          exact iff_of_true
            (s.header_followsLifecycle frame name value
              noIndex) trivial
      | frameRecv frame =>
          rw [followsLifecycle_iff_target, stateAfter_target]
          simp only [StreamEvent.target, StreamEvent.effect,
            KeepsLifecycle]
          cases hFind : s.findStream frame.streamId with
          | none =>
              rw [stateOf_of_none hFind]
              refine iff_of_true ⟨.refl, ?_⟩ ?_
              · intro h
                cases h
              · intro _ h
                cases h
          | some strm =>
              rw [stateOf_of_some hFind]
              simp only [Option.map_some, Option.elim_some,
                Option.some.injEq, forall_eq']
              rw [← receivedState_advances_iff]
              apply and_congr_right
              intro hAdvances
              have hBefore := reserved_of_receivedState
                hAdvances
              exact ⟨fun _ => hBefore,
                fun _ hAfter => .inl (hBefore hAfter)⟩
      | dataChunkRecv id data =>
          refine iff_of_true (followsLifecycle_of_same ?_)
            trivial
          rw [stateAfter_target]
          unfold stateOf
          simp only [StreamEvent.effect]
          cases s.findStream _ <;> rfl
      | streamClose id =>
          exact iff_of_true (s.streamClose_followsLifecycle id)
            trivial
      | beforeFrameSend frame =>
          exact iff_of_true
            (s.beforeFrameSend_followsLifecycle frame) trivial

end CallbackState

end Network

------------------------------------------------------------
-- Runs
------------------------------------------------------------

namespace Network

namespace CallbackState

/-
  Every step of a run follows the state diagram exactly when
  no promise and no end is received on a stream that cannot
  take it.
-/
theorem lifecycle_along_iff
    (s : CallbackState)
    (events : List StreamEvent) :
    Transition.Along (Transition.total step)
        FollowsLifecycle s events ↔
      Transition.Along (Transition.total step)
        KeepsLifecycle s events :=
  Transition.along_congr (I := fun _ => True)
    (fun _ event _ => followsLifecycle_iff event)
    (fun _ _ _ _ _ _ => trivial) trivial

/- A push on an open request stream. -/
def pushOnRequest : List StreamEvent :=
  [.registered 1,
    .callback (.frameRecv
      { streamId := 1, type := .headers, cat := .response }),
    .callback (.beginHeaders
      { streamId := 1, type := .pushPromise
        promisedStreamId := 2 }),
    .callback (.header
      { streamId := 1, type := .pushPromise
        promisedStreamId := 2 }
      (ascii ":path") (ascii "/") false),
    .callback (.frameRecv
      { streamId := 1, type := .pushPromise
        promisedStreamId := 2 })]

/- The request stream becomes `ReservedRemote` as well. -/
theorem push_reserves_request :
    ¬ Transition.Along (Transition.total step)
      FollowsLifecycle {} pushOnRequest := by
  intro hAlong
  have hRun :
      Transition.exec (Transition.total step) {}
          (pushOnRequest.take 4) =
        some (run {} (pushOnRequest.take 4)) := rfl
  have hLast :
      (run {} (pushOnRequest.take 4)).FollowsLifecycle
        (.callback (.frameRecv
          { streamId := 1, type := .pushPromise
            promisedStreamId := 2 })) :=
    Transition.Along.last hAlong hRun
  exact absurd (hLast 1).1 (by decide)

end CallbackState

end Network
