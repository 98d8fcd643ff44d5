import XMLHttpRequest.Session.StreamView

/-
  Streams of one session do not disturb each other.

  Key definitions include:
    * `Network.CallbackState.readyCalls`
    * `Network.InStreamOrder`

  Key theorems include:
    * `Network.CallbackState.unwinding`
    * `Network.CallbackState.readyCalls_of_inStreamOrder`
    * `Network.CallbackState.streams_isolated`
-/

------------------------------------------------------------
-- Ready Calls
------------------------------------------------------------

namespace Network

/- The call reports the close of stream `id`. -/
def Call.isReadyOf (id : StreamId) : Call → Bool
  | .ready _ closed _ _ => closed = id
  | .stateChange _ _ => false

namespace StreamEvent

/- The event makes an entry for stream `id`, if it has none. -/
def opens (id : StreamId) : StreamEvent → Bool
  | callback (.beginHeaders frame) => frame.headersTarget = id
  | callback (.beforeFrameSend frame) => frame.streamId = id
  | registered opened => opened = id
  | _ => false

/- The DATA chunk that an event delivers to stream `id`. -/
def chunk? (id : StreamId) : StreamEvent → Option Bytes
  | callback (.dataChunkRecv received data) =>
      if received = id then some data else none
  | _ => none

end StreamEvent

/- The DATA chunks delivered to a stream, in order. -/
def chunksOf
    (id : StreamId)
    (events : List StreamEvent) : List Bytes :=
  events.filterMap (·.chunk? id)

namespace CallbackState

/- The ready calls that an event makes for stream `id`. -/
def readyCallsOf
    (id : StreamId)
    (s : CallbackState)
    (event : StreamEvent) : List Call :=
  (s.calls event).filter (·.isReadyOf id)

/- The ready calls made for stream `id` in a run. -/
def readyCalls
    (id : StreamId)
    (s : CallbackState)
    (events : List StreamEvent) : List Call :=
  Unwinding.trace step (readyCallsOf id) s events

variable (s : CallbackState)

@[simp] theorem callStateChange_filter_ready
    (id : StreamId)
    (state : ReadyState) :
    (s.callStateChange state).filter (·.isReadyOf id) =
      [] := by
  unfold callStateChange
  split <;> rfl

theorem callReady_filter_ready
    (id closed : StreamId)
    (strm : Stream) :
    (s.callReady closed strm).filter (·.isReadyOf id) =
      if closed = id then s.callReady closed strm
      else [] := by
  unfold callReady
  cases s.onReadyCb <;> by_cases hId : closed = id <;>
    simp [Call.isReadyOf, hId]

/- Only the close of an entry in the map is reported. -/
theorem readyCallsOf_eq
    (id : StreamId)
    (event : StreamEvent) :
    readyCallsOf id s event =
      if event = .close id then
        match s.findStream id with
        | some strm => s.callReady id strm
        | none => []
      else [] := by
  cases event with
  | registered opened => simp [readyCallsOf, calls]
  | callback c =>
      cases c with
      | beginHeaders frame =>
          simp [readyCallsOf, calls, apply]
      | header frame name value noIndex =>
          cases hType : frame.type <;>
            simp [readyCallsOf, calls, apply,
              onHeaderCallback, hType]
      | frameRecv frame =>
          simp [readyCallsOf, calls, apply]
      | dataChunkRecv received data =>
          simp [readyCallsOf, calls, apply,
            onDataChunkRecvCallback]
      | streamClose closed =>
          by_cases hId : closed = id
          · subst hId
            cases hFind : s.findStream closed <;>
              simp [readyCallsOf, calls, apply,
                onStreamCloseCallback, hFind,
                callReady_filter_ready]
          · cases hFind : s.findStream closed <;>
              simp [readyCallsOf, calls, apply,
                onStreamCloseCallback, hFind,
                callReady_filter_ready, hId]
      | beforeFrameSend frame =>
          simp [readyCallsOf, calls, apply]

end CallbackState

end Network

------------------------------------------------------------
-- Unwinding
------------------------------------------------------------

namespace Network

namespace CallbackState

/- What the fate of stream `id` depends on. -/
def view
    (id : StreamId)
    (s : CallbackState) :
    Option Stream × Bytes × Option ReadyCallback :=
  (s.findStream id, s.overrideMimeType, s.onReadyCb)

/- The session isolates its streams from each other. -/
theorem unwinding :
    Unwinding.Conditions step readyCallsOf view
      (fun id event => event.target = id) where
  silent id s event hOther := by
    have hSettings := s.step_settings event
    have hTarget : ¬ id = event.target := by
      simpa [eq_comm] using hOther
    simp [view, hSettings.1, hSettings.2.1,
      findStream_step, hTarget]
  quiet id s event hOther := by
    rw [readyCallsOf_eq]
    have hClose : event ≠ .close id := by
      rintro rfl
      simp [StreamEvent.target] at hOther
    simp [hClose]
  step_congr id s s' event hView := by
    simp only [view, Prod.mk.injEq] at hView ⊢
    rcases hView with ⟨hEntry, hType, hReady⟩
    have hSettings := s.step_settings event
    have hSettings' := s'.step_settings event
    refine ⟨?_, ?_, ?_⟩
    · rw [findStream_step, findStream_step, hEntry, hType]
    · rw [hSettings.1, hSettings'.1, hType]
    · rw [hSettings.2.1, hSettings'.2.1, hReady]
  out_congr id s s' event hView := by
    simp only [view, Prod.mk.injEq] at hView
    rcases hView with ⟨hEntry, hType, hReady⟩
    simp only [readyCallsOf_eq, hEntry, callReady, hReady]

/-
  Callbacks about other streams can be left out of a run
  without changing what is reported about stream `id`.
-/
theorem readyCalls_filter
    (s : CallbackState)
    (events : List StreamEvent)
    (id : StreamId)
    (keep : StreamEvent → Bool)
    (hKeep :
      ∀ event : StreamEvent,
        event.target = id → keep event = true) :
    readyCalls id s events =
      readyCalls id s (events.filter keep) := by
  have hProjected :=
    unwinding.trace_eq id events
      (rfl : view id s = view id s)
  have hProjectedKept :=
    unwinding.trace_eq id (events.filter keep)
      (rfl : view id s = view id s)
  have hSame :
      (events.filter keep).filter
          (fun event => decide (event.target = id)) =
        events.filter
          (fun event => decide (event.target = id)) := by
    rw [List.filter_filter]
    apply List.filter_congr
    intro event hEvent
    by_cases hTarget : event.target = id
    · simp [hTarget, hKeep event hTarget]
    · simp [hTarget]
  rw [hSame] at hProjectedKept
  exact hProjected.trans hProjectedKept.symm

end CallbackState

end Network

------------------------------------------------------------
-- Data
------------------------------------------------------------

namespace Network

/- An event appends the chunk that it brings, if any. -/
theorem StreamEvent.onResponse_data
    {id : StreamId}
    {event : StreamEvent}
    (hTarget : event.target = id)
    (type : Bytes)
    (rp : Response) :
    (event.onResponse type rp).data_ =
      rp.data_ ++ (event.chunk? id).toList := by
  subst hTarget
  cases event with
  | registered opened => simp [onResponse, chunk?]
  | callback c =>
      cases c with
      | header frame name value noIndex =>
          simp only [onResponse, chunk?]
          split <;> simp
      | dataChunkRecv received data =>
          simp [onResponse, chunk?, target, Response.addData]
      | _ => simp [onResponse, chunk?]

/- An entry made by an event has a response of its own. -/
theorem StreamEvent.effect_none_rp
    {event : StreamEvent}
    {type : Bytes}
    {strm : Stream}
    (hEffect : event.effect type none = some strm) :
    strm.rp = {} := by
  cases event with
  | registered opened =>
      simp only [effect, Option.getD_none,
        Option.some.injEq] at hEffect
      rw [← hEffect]
      rfl
  | callback c =>
      cases c with
      | beginHeaders frame =>
          simp only [effect, Option.getD_none,
            Option.some.injEq] at hEffect
          rw [← hEffect]
          rfl
      | header frame name value noIndex =>
          cases hType : frame.type <;>
            simp [effect, hType] at hEffect
      | frameRecv frame => simp [effect] at hEffect
      | dataChunkRecv received data =>
          simp [effect] at hEffect
      | streamClose closed => simp [effect] at hEffect
      | beforeFrameSend frame =>
          simp only [effect, Option.getD_none,
            Option.some.injEq] at hEffect
          rw [← hEffect, Stream.processOutgoingFrame_rp]
          rfl

theorem StreamEvent.chunk?_of_opens
    {id : StreamId}
    {event : StreamEvent}
    (hOpens : event.opens id = true) :
    event.chunk? id = none := by
  unfold opens at hOpens
  split at hOpens <;> first | rfl | simp at hOpens

theorem chunksOf_filter_target
    (id : StreamId)
    (events : List StreamEvent) :
    chunksOf id (events.filter (·.target = id)) =
      chunksOf id events := by
  unfold chunksOf
  rw [List.filterMap_filter]
  apply List.filterMap_congr
  intro event hEvent
  by_cases hTarget : event.target = id
  · simp [hTarget]
  · -- a chunk for `id` has `id` as its target
    have hNone : event.chunk? id = none := by
      unfold StreamEvent.chunk?
      split
      · rename_i received data
        exact if_neg hTarget
      · rfl
    simp [hTarget, hNone]

/- The events of a stream collect exactly its chunks. -/
theorem StreamEvent.foldl_onResponse_data
    {id : StreamId}
    (type : Bytes)
    (events : List StreamEvent)
    (hTarget : ∀ event ∈ events, event.target = id)
    (rp : Response) :
    (events.foldl
        (fun rp event => event.onResponse type rp)
        rp).data_ =
      rp.data_ ++ chunksOf id events := by
  induction events generalizing rp with
  | nil => simp [chunksOf]
  | cons event events ih =>
      rw [List.foldl_cons,
        ih fun next hNext =>
          hTarget next (List.mem_cons_of_mem _ hNext),
        onResponse_data
          (hTarget event List.mem_cons_self),
        List.append_assoc]
      cases hChunk : event.chunk? id <;>
        simp [chunksOf, hChunk]

namespace CallbackState

theorem findStream_run_data
    (s : CallbackState)
    (events : List StreamEvent)
    {id : StreamId}
    (hClose : .close id ∉ events)
    {strm : Stream}
    (hFind : s.findStream id = some strm) :
    ∃ strm', (s.run events).findStream id = some strm' ∧
      strm'.rp.data_ =
        strm.rp.data_ ++ chunksOf id events := by
  rcases s.findStream_run_rp events hClose hFind with
    ⟨strm', hFind', hResponse⟩
  refine ⟨strm', hFind', ?_⟩
  rw [hResponse, ← chunksOf_filter_target]
  apply StreamEvent.foldl_onResponse_data
  intro event hEvent
  simpa using (List.mem_filter.mp hEvent).2

/- An opening event leaves an entry. -/
theorem findStream_step_opens
    (s : CallbackState)
    {id : StreamId}
    {event : StreamEvent}
    (hOpens : event.opens id = true) :
    ∃ strm, (s.step event).findStream id = some strm := by
  rw [findStream_step]
  unfold StreamEvent.opens at hOpens
  split at hOpens
  · rename_i frame
    have hId : id = frame.headersTarget := by
      simpa using (of_decide_eq_true hOpens).symm
    exact ⟨_, if_pos hId⟩
  · rename_i frame
    have hId : id = frame.streamId :=
      (of_decide_eq_true hOpens).symm
    exact ⟨_, if_pos hId⟩
  · rename_i opened
    have hId : id = opened :=
      (of_decide_eq_true hOpens).symm
    exact ⟨_, if_pos hId⟩
  · exact absurd hOpens Bool.false_ne_true

end CallbackState

end Network

------------------------------------------------------------
-- Order of a Stream's Events
------------------------------------------------------------

namespace Network

/-
  nghttp2's order for one stream: an entry is made before the
  first chunk of the stream arrives, and the stream is closed
  once, after its last chunk.
-/
def InStreamOrder
    (id : StreamId)
    (events : List StreamEvent) : Prop :=
  ∃ before opening during after,
    events =
        before ++ opening ::
          (during ++ .close id :: after) ∧
      opening.opens id = true ∧
      chunksOf id before = [] ∧ chunksOf id after = [] ∧
      .close id ∉ before ∧ .close id ∉ during ∧
      .close id ∉ after

namespace CallbackState

variable (s : CallbackState)

/- A run without the close of `id` reports nothing about it. -/
theorem readyCalls_eq_nil
    {id : StreamId}
    {events : List StreamEvent}
    (hClose : .close id ∉ events) :
    readyCalls id s events = [] := by
  induction events generalizing s with
  | nil => rfl
  | cons event events ih =>
      have hNe : event ≠ .close id := fun hSame =>
        hClose (hSame ▸ List.mem_cons_self)
      unfold readyCalls
      rw [Unwinding.trace_cons, readyCallsOf_eq,
        if_neg hNe, List.nil_append]
      exact ih (s.step event)
        (fun hRest => hClose (List.mem_cons_of_mem _ hRest))

/- An entry that has received no chunk stays without data. -/
theorem findStream_step_empty
    {id : StreamId}
    {event : StreamEvent}
    (hChunk : event.chunk? id = none)
    (hEmpty :
      ∀ strm, s.findStream id = some strm →
        strm.rp.data_ = []) :
    ∀ strm, (s.step event).findStream id = some strm →
      strm.rp.data_ = [] := by
  intro strm hFind
  rw [findStream_step] at hFind
  split at hFind
  · rename_i hTarget
    cases hEntry : s.findStream id with
    | none =>
        rw [hEntry] at hFind
        rw [StreamEvent.effect_none_rp hFind]
    | some old =>
        by_cases hClose : event = .close event.target
        · rw [hClose] at hFind
          simp [StreamEvent.effect] at hFind
        · rcases StreamEvent.effect_some hClose
              s.overrideMimeType old with
            ⟨new, hNew, hResponse⟩
          rw [hEntry, hNew, Option.some.injEq] at hFind
          rw [← hFind, hResponse,
            StreamEvent.onResponse_data hTarget.symm,
            hEmpty old hEntry, hChunk]
          rfl
  · exact hEmpty strm hFind

theorem findStream_run_empty
    {id : StreamId}
    {events : List StreamEvent}
    (hChunks : chunksOf id events = [])
    (hEmpty :
      ∀ strm, s.findStream id = some strm →
        strm.rp.data_ = []) :
    ∀ strm, (s.run events).findStream id = some strm →
      strm.rp.data_ = [] := by
  induction events generalizing s with
  | nil => exact hEmpty
  | cons event events ih =>
      have hAll := List.filterMap_eq_nil_iff.mp hChunks
      have hRest : chunksOf id events = [] :=
        List.filterMap_eq_nil_iff.mpr fun next hNext =>
          hAll next (List.mem_cons_of_mem _ hNext)
      exact ih (s.step event) hRest
        (s.findStream_step_empty
          (hAll event List.mem_cons_self) hEmpty)

/- A stream that closes once is reported by its close. -/
theorem readyCalls_of_one_close
    {id : StreamId}
    {first last : List StreamEvent}
    (hFirst : .close id ∉ first)
    (hLast : .close id ∉ last) :
    readyCalls id s (first ++ .close id :: last) =
      readyCallsOf id (s.run first) (.close id) := by
  have hEarly := s.readyCalls_eq_nil hFirst
  have hLate :=
    ((s.run first).step (.close id)).readyCalls_eq_nil hLast
  unfold readyCalls at hEarly hLate ⊢
  rw [Unwinding.trace_append, hEarly, List.nil_append,
    Unwinding.trace_cons]
  exact (congrArg _ hLate).trans (List.append_nil _)

theorem readyCallsOf_close
    {closure : ReadyCallback}
    (hReady : s.onReadyCb = some closure)
    {id : StreamId}
    {strm : Stream}
    (hFind : s.findStream id = some strm) :
    readyCallsOf id s (.close id) =
      [.ready closure id strm.rq strm.rp] := by
  rw [readyCallsOf_eq, if_pos rfl, hFind]
  simp only [callReady, hReady]

/-
  The entry of a stream that was opened without data holds the
  chunks that have arrived since.
-/
theorem findStream_run_opened
    {id : StreamId}
    {before during : List StreamEvent}
    {opening : StreamEvent}
    (hOpens : opening.opens id = true)
    (hBefore : chunksOf id before = [])
    (hClose : .close id ∉ during)
    (hEmpty :
      ∀ strm, s.findStream id = some strm →
        strm.rp.data_ = []) :
    ∃ strm,
      (s.run (before ++ opening :: during)).findStream id =
          some strm ∧
        strm.rp.data_ = chunksOf id during := by
  have hStart :=
    (s.run before).findStream_step_empty
      (StreamEvent.chunk?_of_opens hOpens)
      (s.findStream_run_empty hBefore hEmpty)
  rcases (s.run before).findStream_step_opens hOpens with
    ⟨opened, hOpened⟩
  rcases findStream_run_data ((s.run before).step opening)
      during hClose hOpened with
    ⟨strm, hFind, hData⟩
  refine ⟨strm, ?_, ?_⟩
  · rw [← hFind, run, Unwinding.run_append]
    rfl
  · rw [hData, hStart opened hOpened, List.nil_append]

/-
  A stream served in nghttp2's order is reported once, with
  its chunks in order, none lost and none repeated.
-/
theorem readyCalls_of_inStreamOrder
    {closure : ReadyCallback}
    (hReady : s.onReadyCb = some closure)
    {events : List StreamEvent}
    {id : StreamId}
    (hOrder : InStreamOrder id events)
    (hEmpty :
      ∀ strm, s.findStream id = some strm →
        strm.rp.data_ = []) :
    ∃ rq rp,
      readyCalls id s events = [.ready closure id rq rp] ∧
        rp.data_ = chunksOf id events := by
  rcases hOrder with
    ⟨before, opening, during, after, rfl, hOpens,
      hBefore, hAfter, hCloseBefore, hCloseDuring,
      hCloseAfter⟩
  rcases s.findStream_run_opened hOpens hBefore hCloseDuring
      hEmpty with
    ⟨closing, hClosing, hData⟩
  have hFirst : .close id ∉ before ++ opening :: during := by
    simp only [List.mem_append, List.mem_cons, not_or]
    refine ⟨hCloseBefore, ?_, hCloseDuring⟩
    intro hSame
    rw [← hSame] at hOpens
    cases hOpens
  have hClosure :
      (s.run (before ++ opening :: during)).onReadyCb =
        some closure := by
    rw [(s.run_settings _).2.1, hReady]
  have hSplit :
      before ++ opening :: (during ++ .close id :: after) =
        (before ++ opening :: during) ++
          .close id :: after := by
    simp
  refine ⟨closing.rq, closing.rp, ?_, ?_⟩
  · rw [hSplit, s.readyCalls_of_one_close hFirst hCloseAfter,
      readyCallsOf_close _ hClosure hClosing]
  · have hQuiet := StreamEvent.chunk?_of_opens hOpens
    rw [hData]
    simp only [chunksOf, List.filterMap_append,
      List.filterMap_cons, hQuiet] at hBefore hAfter ⊢
    rw [hBefore, hAfter]
    simp [StreamEvent.chunk?]

end CallbackState

end Network

------------------------------------------------------------
-- Isolation of Streams
------------------------------------------------------------

namespace Network

namespace CallbackState

variable (s : CallbackState)

/-
  What is reported about a stream does not depend on the
  callbacks of other streams, every close of an entry in the
  map is reported once, and a stream served in nghttp2's order
  is reported with exactly the chunks it was sent.
-/
theorem streams_isolated
    (closure : ReadyCallback)
    (hReady : s.onReadyCb = some closure)
    (events : List StreamEvent)
    (id : StreamId) :
    (∀ keep : StreamEvent → Bool,
        (∀ event, event.target = id → keep event = true) →
          readyCalls id s events =
            readyCalls id s (events.filter keep)) ∧
      (∀ before after strm,
        events = before ++ .close id :: after →
          (s.run before).findStream id = some strm →
            readyCallsOf id (s.run before) (.close id) =
              [.ready closure id strm.rq strm.rp]) ∧
      (InStreamOrder id events →
        (∀ strm, s.findStream id = some strm →
          strm.rp.data_ = []) →
        ∃ rq rp,
          readyCalls id s events =
              [.ready closure id rq rp] ∧
            rp.data_ = chunksOf id events) := by
  refine ⟨fun keep => s.readyCalls_filter events id keep,
    ?_, s.readyCalls_of_inStreamOrder hReady⟩
  intro before after strm _ hFind
  rw [readyCallsOf_eq, if_pos rfl, hFind]
  simp only [callReady, (s.run_settings before).2.1, hReady]

/- Two requests whose chunks arrive in turns. -/
def interleaved : List StreamEvent :=
  [.registered 1, .registered 3,
    .callback (.dataChunkRecv 1 (ascii "a")),
    .callback (.dataChunkRecv 3 (ascii "b")),
    .callback (.dataChunkRecv 1 (ascii "c")),
    .close 3, .close 1]

theorem streams_isolated_interleaved :
    ∃ rq rp,
      readyCalls 1 { onReadyCb := some ⟨none⟩ }
          interleaved =
        [.ready ⟨none⟩ 1 rq rp] ∧
      rp.data_ = [ascii "a", ascii "c"] := by
  have hIsolated :=
    streams_isolated { onReadyCb := some ⟨none⟩ } ⟨none⟩
      rfl interleaved 1
  refine hIsolated.2.2
    ⟨[], .registered 1,
      [.registered 3,
        .callback (.dataChunkRecv 1 (ascii "a")),
        .callback (.dataChunkRecv 3 (ascii "b")),
        .callback (.dataChunkRecv 1 (ascii "c")),
        .close 3], [], rfl, rfl, rfl, rfl, ?_, ?_, ?_⟩ ?_
  all_goals decide

end CallbackState

end Network
