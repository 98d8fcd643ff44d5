import XMLHttpRequest.Session.ResponseAssembly

/-
  The fields that a response saves of a header block, with an
  override of its MIME type or without.

  Key definitions include:
    * `Network.savedFields`
    * `Network.Response.onBlock`
    * `Network.Overrides`

  Key theorems include:
    * `Network.Response.onBlock_header`
    * `Network.CallbackState.findStream_block`
    * `Network.CallbackState.never_overrides`
-/

------------------------------------------------------------
-- Saved Fields
------------------------------------------------------------

namespace Network

def contentTypeName : Bytes := ascii "content-type"

/- A received field as the header keeps it. -/
def Field.entry (field : Field) : Bytes × HeaderValue :=
  (field.name, ⟨field.value, field.noIndex⟩)

/-
  What is saved for a field under an override `type`: for a
  content type the two sides of the first `;` of the override,
  if there is one, and else the field.
-/
def savedFields
    (type : Bytes)
    (field : Field) : List (Bytes × HeaderValue) :=
  if field.name = contentTypeName ∧ type ≠ [] then
    if type.contains 59 then
      [(type.takeWhile (· ≠ 59),
        ⟨(type.dropWhile (· ≠ 59)).tail.filter (! isSpace ·),
          field.noIndex⟩)]
    else []
  else [field.entry]

namespace Response

/- Record the fields of a block. -/
def onBlock
    (type : Bytes)
    (rp : Response)
    (fields : List Field) : Response :=
  fields.foldl
    (fun rp field =>
      rp.onHeader type field.name field.value field.noIndex)
    rp

variable (rp : Response)

theorem onHeader_saved (type : Bytes) (field : Field) :
    (rp.onHeader type field.name field.value
        field.noIndex).header_ =
      rp.header_.addAll (savedFields type field) := by
  have hToken :
      lookupToken field.name = some .contentType ↔
        field.name = contentTypeName :=
    lookupToken_eq_some_iff field.name .contentType
  have hOther :
      lookupToken field.name ≠ some .contentType →
        ¬ (field.name = contentTypeName ∧ type ≠ []) :=
    fun hNot hBoth => hNot (hToken.mpr hBoth.1)
  unfold onHeader savedFields
  split
  · rename_i hStatus
    rw [if_neg (hOther (by simp [hStatus]))]
    rfl
  · rename_i hLength
    rw [if_neg (hOther (by simp [hLength]))]
    rfl
  · rename_i hType
    by_cases hOverride : type = []
    · rw [if_neg (not_not.mpr hOverride),
        if_neg fun hBoth => hBoth.2 hOverride]
      rfl
    · rw [if_pos hOverride,
        if_pos ⟨hToken.mp hType, hOverride⟩]
      unfold addOverridenType
      split <;> rfl
  · rename_i hNone
    rw [if_neg (hOther fun hType => hNone hType)]
    rfl

/- A block is saved field by field, in the order received. -/
theorem onBlock_header
    (type : Bytes)
    (fields : List Field) :
    (rp.onBlock type fields).header_ =
      rp.header_.addAll
        (fields.flatMap (savedFields type)) := by
  induction fields generalizing rp with
  | nil => rfl
  | cons field fields ih =>
      have hBlock :
          rp.onBlock type (field :: fields) =
            (rp.onHeader type field.name field.value
              field.noIndex).onBlock type fields := rfl
      rw [hBlock, ih, onHeader_saved, List.flatMap_cons,
        Header.addAll_append]

end Response

/- Without an override every field is saved as it is. -/
theorem savedFields_plain
    {type : Bytes}
    {field : Field}
    (hPlain : type = [] ∨ field.name ≠ contentTypeName) :
    savedFields type field = [field.entry] := by
  unfold savedFields
  rw [if_neg]
  rintro ⟨hName, hOverride⟩
  rcases hPlain with hNone | hOther
  · exact hOverride hNone
  · exact hOther hName

end Network

------------------------------------------------------------
-- Received Blocks
------------------------------------------------------------

namespace Network

/-
  The callbacks of one header block, as a stream meets them,
  whatever comes in between for other streams.
-/
def ReceivesBlock
    (frame : Frame)
    (fields : List Field)
    (events : List StreamEvent) : Prop :=
  events.filter (·.target = frame.streamId) =
    (blockCallbacks frame fields).map .callback

theorem onResponse_block
    {frame : Frame}
    (hType : frame.type = .headers)
    (hCat : frame.cat ≠ .headers)
    (type : Bytes)
    (rp : Response)
    (fields : List Field) :
    ((blockCallbacks frame fields).map
        StreamEvent.callback).foldl
        (fun rp event => event.onResponse type rp) rp =
      rp.onBlock type fields := by
  simp only [blockCallbacks, List.map_append, List.map_cons,
    List.map_map, List.foldl_append, List.foldl_cons,
    List.foldl_map, List.map_nil, List.foldl_nil,
    StreamEvent.onResponse, Function.comp_apply, hType,
    hCat, ne_eq, not_false_eq_true, and_self, if_true]
  rfl

namespace CallbackState

variable (s : CallbackState)

/- The response that a block finds. -/
def responseBefore (id : StreamId) : Response :=
  ((s.findStream id).getD (Stream.create id)).rp

/- A received block is recorded in the response of its stream. -/
theorem findStream_block
    {frame : Frame}
    {fields : List Field}
    {events : List StreamEvent}
    (hType : frame.type = .headers)
    (hCat : frame.cat ≠ .headers)
    (hBlock : ReceivesBlock frame fields events) :
    ∃ strm,
      (s.run events).findStream frame.streamId =
          some strm ∧
        strm.rp =
          (s.responseBefore frame.streamId).onBlock
            s.overrideMimeType fields := by
  have hTarget :
      ∀ event ∈ (blockCallbacks frame fields).map
          StreamEvent.callback,
        event.target = frame.streamId ∧
          event ≠ .close frame.streamId := by
    intro event hEvent
    rcases List.mem_map.mp hEvent with ⟨c, hC, rfl⟩
    simp only [blockCallbacks, List.cons_append,
      List.mem_cons, List.mem_append, List.mem_map,
      List.not_mem_nil, or_false] at hC
    rcases hC with rfl | ⟨field, _, rfl⟩ | rfl
    · simp [StreamEvent.target, Frame.headersTarget, hType]
    · simp [StreamEvent.target, Frame.headersTarget, hType]
    · simp [StreamEvent.target]
  have hCreate :
      Stream.create frame.headersTarget =
        Stream.create frame.streamId := by
    simp [Frame.headersTarget, hType]
  rw [findStream_run, hBlock]
  rcases StreamEvent.foldl_effect_rp s.overrideMimeType
      (((blockCallbacks frame fields).map
        StreamEvent.callback).tail)
      (fun event hEvent =>
        (hTarget event (List.mem_of_mem_tail hEvent)).1)
      (fun event hEvent =>
        (hTarget event (List.mem_of_mem_tail hEvent)).2)
      ((s.findStream frame.streamId).getD
        (Stream.create frame.streamId)) with
    ⟨strm, hFound, hResponse⟩
  refine ⟨strm, ?_, ?_⟩
  · rw [← hFound, ← hCreate]
    rfl
  · rw [hResponse, ← onResponse_block hType hCat]
    rfl

end CallbackState

end Network

------------------------------------------------------------
-- Overrides
------------------------------------------------------------

namespace Network

/- A text without its white space. -/
def withoutSpaces (s : Bytes) : Bytes :=
  s.filter (! isSpace ·)

/-
  The response is one without an override, but for its content
  type, which is the override.
-/
structure Overrides
    (type : Bytes)
    (plain rp : Response) : Prop where
  contentType :
    ∃ field, field ∈ rp.header_.valuesOf contentTypeName ∧
      withoutSpaces field.value = withoutSpaces type
  replaced :
    ∀ field ∈ rp.header_.valuesOf contentTypeName,
      withoutSpaces field.value = withoutSpaces type
  others :
    ∀ name, name ≠ contentTypeName →
      rp.header_.valuesOf name = plain.header_.valuesOf name
  statusCode : rp.statusCode_ = plain.statusCode_
  contentLength : rp.contentLength_ = plain.contentLength_

/- The two sides of the first byte of a kind. -/
theorem takeWhile_append_tail
    {c : UInt8}
    {s : Bytes}
    (hMem : c ∈ s) :
    s.takeWhile (· ≠ c) ++ c :: (s.dropWhile (· ≠ c)).tail =
      s := by
  induction s with
  | nil => cases hMem
  | cons d s ih =>
      by_cases hSame : d = c
      · simp [hSame]
      · have hLater : c ∈ s :=
          (List.mem_cons.mp hMem).resolve_left (Ne.symm hSame)
        simp only [List.takeWhile_cons, List.dropWhile_cons,
          ne_eq, hSame, not_false_eq_true, decide_true,
          if_true, List.cons_append]
        exact congrArg (d :: ·) (ih hLater)

/- Nothing that is saved under an override is the override. -/
theorem savedFields_ne_override
    {type : Bytes}
    (hOverride : type ≠ [])
    {field : Field}
    {entry : Bytes × HeaderValue}
    (hSaved : entry ∈ savedFields type field)
    (hName : entry.1 = contentTypeName) :
    withoutSpaces entry.2.value ≠ withoutSpaces type := by
  unfold savedFields at hSaved
  split at hSaved
  · split at hSaved
    · rename_i hSemicolon
      have hMem : 59 ∈ type := by simpa using hSemicolon
      rw [List.mem_singleton.mp hSaved]
      intro hSame
      have hSides :
          (withoutSpaces type).length =
            (withoutSpaces (type.takeWhile (· ≠ 59))).length +
              1 + (withoutSpaces
                (type.dropWhile (· ≠ 59)).tail).length := by
        conv_lhs => rw [← takeWhile_append_tail hMem]
        have hKept : (! isSpace 59) = true := by decide
        simp only [withoutSpaces, List.filter_append,
          List.filter_cons, hKept, if_true,
          List.length_append, List.length_cons]
        omega
      have hLength := congrArg List.length hSame
      have hShort :
          (withoutSpaces (withoutSpaces
              (type.dropWhile (· ≠ 59)).tail)).length ≤
            (withoutSpaces
              (type.dropWhile (· ≠ 59)).tail).length :=
        List.length_filter_le _ _
      simp only [withoutSpaces] at hLength hShort hSides
      omega
    · cases hSaved
  · rename_i hOther
    rw [List.mem_singleton.mp hSaved] at hName
    exact absurd ⟨hName, hOverride⟩ hOther

namespace CallbackState

/-
  Whatever override is set and whatever block is received, the
  response has no content type that is the override.
-/
theorem never_overrides
    (s : CallbackState)
    {frame : Frame}
    {fields : List Field}
    {events : List StreamEvent}
    (hOverride : s.overrideMimeType ≠ [])
    (hFresh :
      (s.responseBefore frame.streamId).header_.valuesOf
        contentTypeName = [])
    (hType : frame.type = .headers)
    (hCat : frame.cat ≠ .headers)
    (hBlock : ReceivesBlock frame fields events) :
    ∃ strm plain,
      (s.run events).findStream frame.streamId =
        some strm ∧
      ({ s with overrideMimeType := [] }.run
          events).findStream frame.streamId = some plain ∧
      ¬ Overrides s.overrideMimeType plain.rp strm.rp := by
  rcases s.findStream_block hType hCat hBlock with
    ⟨strm, hFound, hResponse⟩
  rcases { s with
      overrideMimeType := [] }.findStream_block hType hCat
      hBlock with ⟨plain, hPlain, _⟩
  refine ⟨strm, plain, hFound, hPlain, ?_⟩
  intro hOverrides
  rcases hOverrides.contentType with ⟨field, hField, hSame⟩
  rw [hResponse, Response.onBlock_header, Header.addAll,
    OrderedMultimap.valuesOf_foldl_emplace, hFresh,
    List.nil_append] at hField
  rcases List.mem_map.mp hField with ⟨entry, hEntry, rfl⟩
  rcases List.mem_filter.mp hEntry with ⟨hSaved, hName⟩
  rcases List.mem_flatMap.mp hSaved with
    ⟨received, _, hReceived⟩
  exact savedFields_ne_override hOverride hReceived
    (by simpa using hName) hSame

end CallbackState

/- A response block with a content type. -/
def typedBlock : List Field :=
  [ { name := ascii ":status", value := ascii "200" },
    { name := contentTypeName, value := ascii "text/html" } ]

/- A session with an override, and a block that it receives. -/
def overridingState (type : Bytes) : CallbackState :=
  { overrideMimeType := type }

def typedEvents : List StreamEvent :=
  (blockCallbacks (headersFrame 1 .response true)
    typedBlock).map .callback

/- An override with a parameter. -/
theorem never_overrides_charset :
    ∃ strm plain,
      ((overridingState
          (ascii "text/plain; charset=utf-8")).run
            typedEvents).findStream 1 = some strm ∧
      ({ overridingState
            (ascii "text/plain; charset=utf-8") with
          overrideMimeType := [] }.run
            typedEvents).findStream 1 = some plain ∧
      ¬ Overrides (ascii "text/plain; charset=utf-8")
        plain.rp strm.rp :=
  (overridingState
    (ascii "text/plain; charset=utf-8")).never_overrides
      (by decide) (by decide) rfl (by decide)
      (show ReceivesBlock (headersFrame 1 .response true)
          typedBlock typedEvents by
        unfold ReceivesBlock; decide +kernel)

/- Without a parameter the content type is gone. -/
theorem override_drops_type :
    ∃ strm plain,
      ((overridingState (ascii "text/plain")).run
          typedEvents).findStream 1 = some strm ∧
      ((overridingState []).run typedEvents).findStream 1 =
        some plain ∧
      strm.rp.header_.valuesOf contentTypeName = [] ∧
      ¬ Overrides (ascii "text/plain") plain.rp strm.rp := by
  refine ⟨_, _, rfl, rfl, by decide +kernel, ?_⟩
  intro hOverrides
  rcases hOverrides.contentType with ⟨field, hField, -⟩
  exact absurd hField (List.eq_nil_iff_forall_not_mem.mp
    (by decide +kernel) field)

end Network
