import XMLHttpRequest.Session.Callbacks
import XMLHttpRequest.Library.Unwinding

/-
  What one stream sees of the events of a session.

  `StreamEvent.effect` says what an event does to the map
  entry of a stream from that entry alone; the main theorem
  of this file connects it to the callbacks.

  Key definitions include:
    * `Network.StreamEvent`
    * `Network.StreamEvent.effect`
    * `Network.StreamEvent.onResponse`
    * `Network.CallbackState.step`

  Key theorems include:
    * `Network.CallbackState.findStream_step`
    * `Network.CallbackState.findStream_run`
    * `Network.CallbackState.findStream_run_rp`
-/

------------------------------------------------------------
-- The Stream Map
------------------------------------------------------------

namespace Network

namespace CallbackState

variable (s : CallbackState)

theorem findStream_addStream
    (strm : Stream)
    (id : StreamId) :
    (s.addStream strm).findStream id =
      if id = strm.streamId then
        some ((s.findStream id).getD strm)
      else s.findStream id := by
  by_cases hId : id = strm.streamId
  · subst hId
    simp [findStream, addStream,
      KeyedStore.lookup_tryEmplace_self]
  · simp [findStream, addStream, hId,
      KeyedStore.lookup_tryEmplace_ne strm s.streams hId]

theorem findStream_changeStream
    (changed id : StreamId)
    (change : Stream → Stream) :
    (s.changeStream changed change).findStream id =
      if id = changed then (s.findStream id).map change
      else s.findStream id := by
  by_cases hId : id = changed
  · subst hId
    simp [findStream, changeStream]
  · simp [findStream, changeStream, hId,
      KeyedStore.lookup_modify_ne change s.streams hId]

theorem findStream_removeStream
    (removed id : StreamId) :
    (s.removeStream removed).findStream id =
      if id = removed then none else s.findStream id := by
  by_cases hId : id = removed
  · subst hId
    simp [findStream, removeStream]
  · simp [findStream, removeStream, hId,
      AList.lookup_erase_ne hId]

end CallbackState

end Network

------------------------------------------------------------
-- Events
------------------------------------------------------------

namespace Network

/-
  What changes the stream map: the callbacks, and the entry
  that `AbstractSession::submit` makes for a new request.
-/
inductive StreamEvent
  | callback (c : Callback)
  | registered (id : StreamId)
  deriving DecidableEq, Repr

/- The stream for which begin-headers makes an entry. -/
def Frame.headersTarget (frame : Frame) : StreamId :=
  if frame.type ≠ .pushPromise then frame.streamId
  else frame.promisedStreamId

namespace StreamEvent

/- The stream that an event is about. -/
def target : StreamEvent → StreamId
  | callback (.beginHeaders frame) => frame.headersTarget
  | callback (.header frame _ _ _) => frame.headersTarget
  | callback (.frameRecv frame) => frame.streamId
  | callback (.dataChunkRecv id _) => id
  | callback (.streamClose id) => id
  | callback (.beforeFrameSend frame) => frame.streamId
  | registered id => id

/-
  The map entry that an event leaves to its target, under an
  override MIME type `type`.
-/
def effect
    (type : Bytes)
    (entry : Option Stream) :
    StreamEvent → Option Stream
  | callback (.beginHeaders frame) =>
      some (entry.getD (Stream.create frame.headersTarget))
  | callback (.header frame name value noIndex) =>
      match frame.type with
      | .headers =>
          if frame.cat = .headers then entry
          else entry.map fun strm =>
            { strm with
              rp := strm.rp.onHeader type
                name value noIndex }
      | .pushPromise =>
          entry.map fun strm =>
            { strm with
              state :=
                if strm.state = .idle then .reservedRemote
                else strm.state
              rq := strm.rq.onHeader name value noIndex }
      | _ => entry
  | callback (.frameRecv frame) =>
      entry.map fun strm =>
        { strm with
          state := CallbackState.receivedState frame strm }
  | callback (.dataChunkRecv _ data) =>
      entry.map fun strm =>
        { strm with rp := strm.rp.addData data }
  | callback (.streamClose _) => none
  | callback (.beforeFrameSend frame) =>
      some ((entry.getD
        { Stream.create frame.streamId with
          state := .«open» }).processOutgoingFrame frame)
  | registered id => some (entry.getD (Stream.create id))

/- The close of stream `id`. -/
abbrev close (id : StreamId) : StreamEvent :=
  callback (.streamClose id)

/-
  What an event other than a close does to the response of
  its target.
-/
def onResponse
    (type : Bytes)
    (rp : Response) :
    StreamEvent → Response
  | callback (.header frame name value noIndex) =>
      if frame.type = .headers ∧ frame.cat ≠ .headers then
        rp.onHeader type name value noIndex
      else rp
  | callback (.dataChunkRecv _ data) => rp.addData data
  | _ => rp

end StreamEvent

namespace CallbackState

/- Handle an event. -/
def step
    (s : CallbackState) :
    StreamEvent → CallbackState
  | .callback c => (s.apply c).1
  | .registered id => s.addStream (Stream.create id)

/- The closures that an event invokes. -/
def calls
    (s : CallbackState) :
    StreamEvent → List Call
  | .callback c => (s.apply c).2
  | .registered _ => []

/- The state after a list of events. -/
def run
    (s : CallbackState)
    (events : List StreamEvent) : CallbackState :=
  Unwinding.run step s events

end CallbackState

end Network

------------------------------------------------------------
-- Locality
------------------------------------------------------------

namespace Network

@[simp] theorem Stream.create_streamId (id : StreamId) :
    (Stream.create id).streamId = id := rfl

@[simp] theorem Stream.processOutgoingFrame_streamId
    (strm : Stream)
    (frame : Frame) :
    (strm.processOutgoingFrame frame).streamId =
      strm.streamId := by
  unfold Stream.processOutgoingFrame
  split <;> rfl

/- Sending a frame leaves the response alone. -/
@[simp] theorem Stream.processOutgoingFrame_rp
    (strm : Stream)
    (frame : Frame) :
    (strm.processOutgoingFrame frame).rp = strm.rp := by
  unfold Stream.processOutgoingFrame
  split <;> rfl

namespace CallbackState

variable (s : CallbackState)

/- No event changes the override or the closures. -/
theorem step_settings (event : StreamEvent) :
    (s.step event).overrideMimeType =
        s.overrideMimeType ∧
      (s.step event).onReadyCb = s.onReadyCb ∧
      (s.step event).onReadyStateChange =
        s.onReadyStateChange := by
  cases event with
  | registered id => exact ⟨rfl, rfl, rfl⟩
  | callback c =>
      cases c with
      | beginHeaders frame =>
          simp only [step, apply, onBeginHeadersCallback]
          split <;> exact ⟨rfl, rfl, rfl⟩
      | header frame name value noIndex =>
          simp only [step, apply, onHeaderCallback]
          split
          · simp only [onResponseHeader]
            split <;> exact ⟨rfl, rfl, rfl⟩
          · exact ⟨rfl, rfl, rfl⟩
          · exact ⟨rfl, rfl, rfl⟩
      | frameRecv frame => exact ⟨rfl, rfl, rfl⟩
      | dataChunkRecv id data => exact ⟨rfl, rfl, rfl⟩
      | streamClose id =>
          simp only [step, apply, onStreamCloseCallback]
          split <;> exact ⟨rfl, rfl, rfl⟩
      | beforeFrameSend frame =>
          simp only [step, apply, beforeFrameSendCallback]
          split <;> exact ⟨rfl, rfl, rfl⟩

theorem run_settings (events : List StreamEvent) :
    (s.run events).overrideMimeType =
        s.overrideMimeType ∧
      (s.run events).onReadyCb = s.onReadyCb ∧
      (s.run events).onReadyStateChange =
        s.onReadyStateChange := by
  induction events generalizing s with
  | nil => exact ⟨rfl, rfl, rfl⟩
  | cons event events ih =>
      have hStep := s.step_settings event
      have hRest := ih (s.step event)
      exact ⟨hRest.1.trans hStep.1,
        hRest.2.1.trans hStep.2.1,
        hRest.2.2.trans hStep.2.2⟩

/-
  An event changes the entry of its target as `effect` says
  and no other entry.
-/
theorem findStream_step
    (event : StreamEvent)
    (id : StreamId) :
    (s.step event).findStream id =
      if id = event.target then
        event.effect s.overrideMimeType (s.findStream id)
      else s.findStream id := by
  cases event with
  | registered registered =>
      by_cases hId : id = registered <;>
        simp [step, StreamEvent.target, StreamEvent.effect,
          findStream_addStream, hId]
  | callback c =>
      cases c with
      | beginHeaders frame =>
          have hStep :
              s.step (.callback (.beginHeaders frame)) =
                s.addStream
                  (Stream.create frame.headersTarget) := by
            simp only [step, apply, onBeginHeadersCallback,
              Frame.headersTarget]
            split <;> rfl
          by_cases hId : id = frame.headersTarget <;>
            simp [hStep, StreamEvent.target,
              StreamEvent.effect, findStream_addStream, hId]
      | header frame name value noIndex =>
          cases hType : frame.type <;>
            simp only [step, apply, onHeaderCallback, hType,
              StreamEvent.target, StreamEvent.effect,
              Frame.headersTarget, ite_self,
              onPromiseHeader, findStream_changeStream,
              ne_eq, not_true_eq_false, if_false]
          -- what is left is a field of a HEADERS frame
          by_cases hCat : frame.cat = .headers <;>
            simp [onResponseHeader, hCat,
              findStream_changeStream]
      | frameRecv frame =>
          exact findStream_changeStream s _ id _
      | dataChunkRecv changed data =>
          exact findStream_changeStream s _ id _
      | streamClose closed =>
          have hErase :
              (s.step (.callback (.streamClose closed))) =
                s.removeStream closed := by
            simp only [step, apply, onStreamCloseCallback]
            split <;> rfl
          rw [hErase]
          exact findStream_removeStream s closed id
      | beforeFrameSend frame =>
          by_cases hId : id = frame.streamId
          · subst hId
            cases hFind : s.findStream frame.streamId <;>
              simp [step, apply, beforeFrameSendCallback,
                StreamEvent.target, StreamEvent.effect,
                findStream_addStream,
                findStream_changeStream, hFind]
          · cases hFind : s.findStream frame.streamId <;>
              simp [step, apply, beforeFrameSendCallback,
                StreamEvent.target, findStream_addStream,
                findStream_changeStream, hFind, hId]

/- The entry of a stream after a run, from its own events. -/
theorem findStream_run
    (events : List StreamEvent)
    (id : StreamId) :
    (s.run events).findStream id =
      (events.filter (·.target = id)).foldl
        (fun entry event =>
          event.effect s.overrideMimeType entry)
        (s.findStream id) := by
  induction events generalizing s with
  | nil => rfl
  | cons event events ih =>
      have hRun :
          s.run (event :: events) =
            (s.step event).run events := rfl
      rw [hRun, ih, (s.step_settings event).1,
        findStream_step]
      by_cases hTarget : event.target = id
      · rw [List.filter_cons_of_pos (by simpa using hTarget)]
        simp [hTarget]
      · rw [List.filter_cons_of_neg (by simpa using hTarget)]
        simp [Ne.symm hTarget]

end CallbackState

end Network

------------------------------------------------------------
-- The Response of a Stream
------------------------------------------------------------

namespace Network

/- No header field changes the received data. -/
@[simp] theorem Response.onHeader_data
    (rp : Response)
    (type name value : Bytes)
    (noIndex : Bool) :
    (rp.onHeader type name value noIndex).data_ =
      rp.data_ := by
  unfold onHeader
  split
  · rfl
  · rfl
  · split
    · unfold addOverridenType
      split <;> rfl
    · rfl
  · rfl

/- An event other than a close keeps an entry. -/
theorem StreamEvent.effect_some
    {event : StreamEvent}
    (hClose : event ≠ .close event.target)
    (type : Bytes)
    (strm : Stream) :
    ∃ strm', event.effect type (some strm) = some strm' ∧
      strm'.rp = event.onResponse type strm.rp := by
  cases event with
  | registered opened => exact ⟨strm, by simp [effect, onResponse]⟩
  | callback c =>
      cases c with
      | beginHeaders frame =>
          exact ⟨strm, by simp [effect, onResponse]⟩
      | header frame name value noIndex =>
          cases hType : frame.type <;>
            by_cases hCat : frame.cat = .headers <;>
              simp [effect, onResponse, hType, hCat]
      | frameRecv frame => simp [effect, onResponse]
      | dataChunkRecv received data =>
          simp [effect, onResponse]
      | streamClose closed => exact absurd rfl hClose
      | beforeFrameSend frame => simp [effect, onResponse]

/- The response after the events of a stream. -/
theorem StreamEvent.foldl_effect_rp
    {id : StreamId}
    (type : Bytes)
    (events : List StreamEvent)
    (hTarget : ∀ event ∈ events, event.target = id)
    (hClose : ∀ event ∈ events, event ≠ .close id)
    (strm : Stream) :
    ∃ strm',
      events.foldl
          (fun entry event => event.effect type entry)
          (some strm) = some strm' ∧
        strm'.rp =
          events.foldl
            (fun rp event => event.onResponse type rp)
            strm.rp := by
  induction events generalizing strm with
  | nil => exact ⟨strm, rfl, rfl⟩
  | cons event events ih =>
      have hKeeps : event ≠ .close event.target := by
        rw [hTarget event List.mem_cons_self]
        exact hClose event List.mem_cons_self
      rcases effect_some hKeeps type strm with
        ⟨middle, hMiddle, hResponse⟩
      rcases ih
          (fun next hNext =>
            hTarget next (List.mem_cons_of_mem _ hNext))
          (fun next hNext =>
            hClose next (List.mem_cons_of_mem _ hNext))
          middle with
        ⟨final, hFinal, hFinalResponse⟩
      refine ⟨final, ?_, ?_⟩
      · rw [List.foldl_cons, hMiddle]
        exact hFinal
      · rw [hFinalResponse, hResponse]
        rfl

/-
  Until its close an entry stays in the map, and its response
  depends on the events of its stream alone.
-/
theorem CallbackState.findStream_run_rp
    (s : CallbackState)
    (events : List StreamEvent)
    {id : StreamId}
    (hClose : .close id ∉ events)
    {strm : Stream}
    (hFind : s.findStream id = some strm) :
    ∃ strm', (s.run events).findStream id = some strm' ∧
      strm'.rp =
        (events.filter (·.target = id)).foldl
          (fun rp event =>
            event.onResponse s.overrideMimeType rp)
          strm.rp := by
  rw [findStream_run, hFind]
  apply StreamEvent.foldl_effect_rp
  · intro event hEvent
    simpa using (List.mem_filter.mp hEvent).2
  · intro event hEvent hSame
    exact hClose (hSame ▸ (List.mem_filter.mp hEvent).1)

end Network
