import XMLHttpRequest.Http.Lookup
import XMLHttpRequest.Session.StreamView

/-
  What the request of a stream holds once the session has seen
  the HEADERS frame that nghttp2 sends for it.

  The stream is put into the map by whichever comes first, the
  frame or the entry that `submit` makes.  Up to the frame the
  request of the entry is empty, if there is an entry at all,
  and only the frame fills it.

  Key definitions include:
    * `Network.StreamEvent.touchesRequest`
    * `Network.requestOf`
    * `Network.SeesOnce`
    * `Network.Request.Records`

  Key theorems include:
    * `Network.seesOnce_either_order`
    * `Network.StreamEvent.effect_quiet`
    * `Network.Request.addFields_records`
    * `Network.CallbackState.findStream_sent`
-/

------------------------------------------------------------
-- Recorded Requests
------------------------------------------------------------

namespace Network

namespace Request

/- Record the fields of a frame that is sent. -/
def addFields
    (rq : Request)
    (nva : List (Bytes × Bytes)) : Request :=
  nva.foldl
    (fun rq field => rq.addHeader field.1 ⟨field.2, false⟩) rq

/-
  The request has the fields of a list with multiplicity, and
  its getters return what the list has first.
-/
structure Records
    (rq : Request)
    (nva : List (Bytes × Bytes)) : Prop where
  fields :
    OrderedMultimap.Arranges
      (rq.header_.entries.map fun entry =>
        (entry.1, entry.2.value)) nva
  method : rq.method.1 = firstValue (ascii ":method") nva
  scheme : rq.scheme.1 = firstValue (ascii ":scheme") nva
  host : rq.host.1 = firstValue (ascii "host") nva

theorem addFields_eq
    (rq : Request)
    (nva : List (Bytes × Bytes)) :
    rq.addFields nva =
      { rq with
        header_ :=
          rq.header_.addAll
            (nva.map fun field =>
              (field.1, ⟨field.2, false⟩)) } := by
  induction nva generalizing rq with
  | nil => rfl
  | cons field nva ih =>
      have hFirst :
          rq.addFields (field :: nva) =
            (rq.addHeader field.1
              ⟨field.2, false⟩).addFields nva := rfl
      rw [hFirst, ih]
      rfl

/- A new request records what is sent. -/
theorem addFields_records (nva : List (Bytes × Bytes)) :
    Records (addFields {} nva) nva := by
  have hKept : Kept (addFields {} nva) := by
    rw [addFields_eq]
    exact ⟨rfl, rfl, .inl rfl⟩
  have hHeader :
      (addFields {} nva).header_ =
        Header.addAll OrderedMultimap.empty
          (nva.map fun field =>
            (field.1, ⟨field.2, false⟩)) := by
    rw [addFields_eq]
  have hSame :
      (nva.map fun field =>
          ((field.1, ⟨field.2, false⟩) :
            Bytes × HeaderValue)).map
          (fun field => (field.1, field.2.value)) = nva := by
    rw [List.map_map]
    exact List.map_id nva
  have hFound (name : Bytes) :
      (addFields {} nva).header_.find name =
        firstValue name nva := by
    rw [hHeader, Header.find_addAll, hSame]
  rcases hKept.getters with ⟨hMethod, hScheme, hHost⟩
  refine ⟨?_, hMethod.trans (hFound _),
    hScheme.trans (hFound _), hHost.trans (hFound _)⟩
  have hArranges :=
    (OrderedMultimap.arranges_foldl_emplace
      (nva.map fun field =>
        ((field.1, ⟨field.2, false⟩) :
          Bytes × HeaderValue))).map HeaderValue.value
  rw [hSame] at hArranges
  rw [hHeader]
  exact hArranges

end Request

end Network

------------------------------------------------------------
-- Sent Frames
------------------------------------------------------------

namespace Network

/- The event fills the request of its target, or drops it. -/
def StreamEvent.touchesRequest : StreamEvent → Bool
  | .callback (.header frame _ _ _) =>
      frame.type = .pushPromise
  | .callback (.streamClose _) => true
  | .callback (.beforeFrameSend frame) =>
      frame.type = .headers
  | _ => false

/- The request of an entry; a new stream has an empty one. -/
def requestOf (entry : Option Stream) : Request :=
  (entry.map (·.rq)).getD {}

/-
  Of the events of a stream one sends a HEADERS frame with
  these fields, and no other has to do with its request.  The
  entry that `submit` makes may come before it or after it.
-/
def SeesOnce
    (id : StreamId)
    (nva : List (Bytes × Bytes))
    (events : List StreamEvent) : Prop :=
  ∃ before frame after,
    events.filter (·.target = id) =
      before ++ .callback (.beforeFrameSend frame) :: after ∧
    frame.type = .headers ∧
    frame.nva = nva ∧
    ∀ event ∈ before ++ after, event.touchesRequest = false

/- Either order of the frame and the entry will do. -/
theorem seesOnce_either_order
    {frame : Frame}
    (hType : frame.type = .headers) :
    SeesOnce frame.streamId frame.nva
        [ .registered frame.streamId,
          .callback (.beforeFrameSend frame) ] ∧
      SeesOnce frame.streamId frame.nva
        [ .callback (.beforeFrameSend frame),
          .registered frame.streamId ] := by
  refine ⟨⟨[.registered frame.streamId], frame, [], ?_, hType,
    rfl, ?_⟩, ⟨[], frame, [.registered frame.streamId], ?_,
      hType, rfl, ?_⟩⟩ <;>
    simp [StreamEvent.target, StreamEvent.touchesRequest]

/- The sent fields go into the request. -/
theorem Stream.processOutgoingFrame_headers
    (strm : Stream)
    {frame : Frame}
    (hType : frame.type = .headers) :
    strm.processOutgoingFrame frame =
      { strm with rq := strm.rq.addFields frame.nva } := by
  simp only [processOutgoingFrame, hType]
  rfl

theorem Stream.processOutgoingFrame_rq
    (strm : Stream)
    {frame : Frame}
    (hType : frame.type ≠ .headers) :
    (strm.processOutgoingFrame frame).rq = strm.rq := by
  unfold processOutgoingFrame
  split
  · exact absurd ‹_› hType
  · rfl
  · rfl

namespace StreamEvent

/- The other events keep the entry and its request. -/
theorem effect_quiet
    {event : StreamEvent}
    (hQuiet : event.touchesRequest = false)
    (type : Bytes)
    (entry : Option Stream) :
    requestOf (event.effect type entry) = requestOf entry ∧
      (entry.isSome = true →
        (event.effect type entry).isSome = true) := by
  cases event with
  | registered id =>
      cases entry <;> exact ⟨rfl, fun _ => rfl⟩
  | callback c =>
      cases c with
      | beginHeaders frame =>
          cases entry <;> exact ⟨rfl, fun _ => rfl⟩
      | header frame name value noIndex =>
          have hType : frame.type ≠ .pushPromise := by
            simpa [touchesRequest] using hQuiet
          simp only [effect]
          split
          · split
            · exact ⟨rfl, id⟩
            · cases entry <;> exact ⟨rfl, id⟩
          · exact absurd ‹_› hType
          · exact ⟨rfl, id⟩
      | frameRecv frame => cases entry <;> exact ⟨rfl, id⟩
      | dataChunkRecv received data =>
          cases entry <;> exact ⟨rfl, id⟩
      | streamClose closed => cases hQuiet
      | beforeFrameSend frame =>
          have hType : frame.type ≠ .headers := by
            simpa [touchesRequest] using hQuiet
          refine ⟨?_, fun _ => rfl⟩
          simp only [effect, requestOf, Option.map_some,
            Option.getD_some,
            Stream.processOutgoingFrame_rq _ hType]
          cases entry <;> rfl

theorem foldl_effect_quiet
    (type : Bytes)
    {events : List StreamEvent}
    (hQuiet :
      ∀ event ∈ events, event.touchesRequest = false)
    (entry : Option Stream) :
    requestOf
        (events.foldl
          (fun entry event => event.effect type entry)
          entry) = requestOf entry ∧
      (entry.isSome = true →
        (events.foldl
          (fun entry event => event.effect type entry)
          entry).isSome = true) := by
  induction events generalizing entry with
  | nil => exact ⟨rfl, id⟩
  | cons event events ih =>
      have hFirst :=
        effect_quiet (hQuiet event List.mem_cons_self)
          type entry
      have hRest :=
        ih (fun later hLater =>
            hQuiet later (List.mem_cons_of_mem _ hLater))
          (event.effect type entry)
      exact ⟨hRest.1.trans hFirst.1,
        fun hSome => hRest.2 (hFirst.2 hSome)⟩

/- A HEADERS frame fills the request of its stream. -/
theorem effect_send
    {frame : Frame}
    (hType : frame.type = .headers)
    (type : Bytes)
    (entry : Option Stream) :
    requestOf
        ((callback (.beforeFrameSend frame)).effect
          type entry) =
      (requestOf entry).addFields frame.nva := by
  simp only [effect, requestOf, Option.map_some,
    Option.getD_some,
    Stream.processOutgoingFrame_headers _ hType]
  cases entry <;> rfl

end StreamEvent

/-
  Whatever comes first, the stream is in the map and records
  what was sent.
-/
theorem CallbackState.findStream_sent
    (s : CallbackState)
    {id : StreamId}
    {nva : List (Bytes × Bytes)}
    {events : List StreamEvent}
    (hFresh : s.findStream id = none)
    (hSees : SeesOnce id nva events) :
    ∃ strm, (s.run events).findStream id = some strm ∧
      strm.rq.Records nva := by
  rcases hSees with
    ⟨before, frame, after, hEvents, hType, rfl, hQuiet⟩
  have hBefore :=
    StreamEvent.foldl_effect_quiet s.overrideMimeType
      (fun event hEvent =>
        hQuiet event (List.mem_append_left after hEvent))
      (s.findStream id)
  rw [findStream_run, hEvents, List.foldl_append,
    List.foldl_cons]
  generalize
    before.foldl
      (fun entry event =>
        event.effect s.overrideMimeType entry)
      (s.findStream id) = entry at hBefore ⊢
  have hSent :=
    StreamEvent.effect_send hType s.overrideMimeType entry
  have hAfter :=
    StreamEvent.foldl_effect_quiet s.overrideMimeType
      (fun event hEvent =>
        hQuiet event (List.mem_append_right before hEvent))
      ((StreamEvent.callback (.beforeFrameSend frame)).effect
        s.overrideMimeType entry)
  rcases Option.isSome_iff_exists.mp (hAfter.2 rfl) with
    ⟨strm, hFound⟩
  refine ⟨strm, hFound, ?_⟩
  have hRequest :
      strm.rq = Request.addFields {} frame.nva := by
    calc strm.rq
        = requestOf (some strm) := rfl
      _ = (requestOf entry).addFields frame.nva := by
          rw [← hFound, hAfter.1, hSent]
      _ = Request.addFields {} frame.nva := by
          rw [hBefore.1, hFresh]
          rfl
  rw [hRequest]
  exact Request.addFields_records frame.nva

end Network
