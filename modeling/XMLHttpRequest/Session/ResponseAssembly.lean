import XMLHttpRequest.Session.StreamView

/-
  The response that the callbacks of one stream assemble.

  nghttp2 delivers a response as header blocks, of which only
  the first is marked as a response, DATA frames and perhaps a
  trailer block.  The callbacks record the block marked as a
  response, so they assemble the final block exactly when no
  informational block precedes it.

  Key definitions include:
    * `Network.ResponseBlock`
    * `Network.ResponseMessage`
    * `Network.ResponseMessage.callbacks`
    * `Network.ResponseMessage.IsAssembled`

  Key theorems include:
    * `Network.ResponseMessage.recorded_rp`
    * `Network.CallbackState.isAssembled_iff`
-/

------------------------------------------------------------
-- Header Blocks
------------------------------------------------------------

namespace Network

structure Field where
  name : Bytes
  value : Bytes
  noIndex : Bool := false
  deriving DecidableEq, Repr

/- The values of the fields with a name, in order. -/
def valuesNamed
    (name : Bytes)
    (fields : List Field) : List Bytes :=
  (fields.filter (·.name = name)).map (·.value)

/- A string of decimal digits. -/
structure Decimal where
  text : Bytes
  nonempty : text ≠ []
  digits : ∀ c ∈ text, isDigit c = true

def Decimal.value (n : Decimal) : Nat :=
  decimalValue n.text

/-
  A header block of a response as nghttp2 lets it through:
  one three-digit `:status`, and at most one content-length,
  which fits an `int64_t`.
-/
structure ResponseBlock where
  fields : List Field
  status : Decimal
  declared : Option Decimal := none
  endStream : Bool := false
  status_only :
    valuesNamed (ascii ":status") fields = [status.text]
  status_length : status.text.length = 3
  declared_only :
    valuesNamed (ascii "content-length") fields =
      declared.toList.map (·.text)
  declared_fits :
    ∀ n ∈ declared, (n.value : Int) ≤ int64Max

/- A 1xx block. -/
def ResponseBlock.informational
    (block : ResponseBlock) : Prop :=
  block.status.value / 100 = 1

/- The frame of a header block. -/
def headersFrame
    (id : StreamId)
    (cat : HeadersCategory)
    (endStream : Bool) : Frame :=
  { streamId := id
    type := .headers
    endStream := endStream
    cat := cat }

/- The callbacks for a header block. -/
def blockCallbacks
    (frame : Frame)
    (fields : List Field) : List Callback :=
  .beginHeaders frame ::
    (fields.map fun field =>
      .header frame field.name field.value field.noIndex) ++
    [.frameRecv frame]

def ResponseBlock.callbacks
    (block : ResponseBlock)
    (id : StreamId)
    (cat : HeadersCategory) : List Callback :=
  blockCallbacks (headersFrame id cat block.endStream)
    block.fields

end Network

------------------------------------------------------------
-- Messages
------------------------------------------------------------

namespace Network

/- A DATA frame, handed over in chunks. -/
structure DataFrame where
  chunks : List Bytes
  endStream : Bool := false

def DataFrame.callbacks
    (frame : DataFrame)
    (id : StreamId) : List Callback :=
  frame.chunks.map (.dataChunkRecv id ·) ++
    [.frameRecv
      { streamId := id
        type := .data
        endStream := frame.endStream }]

/- A response from its first header block to its last frame. -/
structure ResponseMessage where
  infos : List ResponseBlock := []
  final : ResponseBlock
  frames : List DataFrame := []
  trailer : Option (List Field) := none
  infos_informational :
    ∀ block ∈ infos, block.informational
  final_final : ¬ final.informational

namespace ResponseMessage

variable (message : ResponseMessage)

/- The first header block of the message. -/
def first : ResponseBlock :=
  message.infos.headD message.final

/- The header blocks after the first. -/
def later : List ResponseBlock :=
  (message.infos ++ [message.final]).tail

/- The chunks of the body, in order. -/
def chunks : List Bytes :=
  message.frames.flatMap (·.chunks)

/- What nghttp2 calls for the message. -/
def callbacks (id : StreamId) : List Callback :=
  message.first.callbacks id .response ++
    message.later.flatMap (·.callbacks id .headers) ++
    message.frames.flatMap (·.callbacks id) ++
    message.trailer.toList.flatMap fun fields =>
      blockCallbacks (headersFrame id .headers true) fields

/- The response of a block with a body. -/
structure IsResponse
    (block : ResponseBlock)
    (chunks : List Bytes)
    (rp : Response) : Prop where
  statusCode : rp.statusCode_ = block.status.value
  contentLength :
    rp.contentLength_ =
      (block.declared.map (·.value)).getD 0
  header :
    ∀ name,
      rp.header_.valuesOf name =
        (block.fields.filter (·.name = name)).map
          fun field => ⟨field.value, field.noIndex⟩
  data : rp.data_ = chunks

/- The response holds the final block and the body. -/
def IsAssembled (rp : Response) : Prop :=
  IsResponse message.final message.chunks rp

end ResponseMessage

/- The event is a callback for a received part of a stream. -/
def StreamEvent.receivedBy
    (id : StreamId)
    (event : StreamEvent) : Bool :=
  match event with
  | .registered _ => false
  | .callback (.beforeFrameSend _) => false
  | .callback _ => event.target = id

end Network

------------------------------------------------------------
-- Recording a Block
------------------------------------------------------------

namespace Network

/- A value is kept of the last field of a kind. -/
def keepLast
    {β : Type}
    (read : Bytes → β)
    (old : β)
    (values : List Bytes) : β :=
  values.foldl (fun _ value => read value) old

theorem keepLast_valuesNamed
    {β : Type}
    (read : Bytes → β)
    (old : β)
    (name : Bytes)
    (fields : List Field) :
    keepLast read old (valuesNamed name fields) =
      fields.foldl
        (fun old field =>
          if field.name = name then read field.value
          else old)
        old := by
  rw [keepLast, valuesNamed, List.foldl_map,
    List.foldl_filter]
  simp only [decide_eq_true_eq]

namespace Response

/- Record the fields of a block without an override. -/
def onFields
    (rp : Response)
    (fields : List Field) : Response :=
  fields.foldl
    (fun rp field =>
      rp.onHeader [] field.name field.value field.noIndex)
    rp

variable (rp : Response)

theorem onHeader_header
    (name value : Bytes)
    (noIndex : Bool) :
    (rp.onHeader [] name value noIndex).header_ =
      rp.header_.emplace name ⟨value, noIndex⟩ := by
  unfold onHeader
  split <;> rfl

theorem onHeader_statusCode
    (name value : Bytes)
    (noIndex : Bool) :
    (rp.onHeader [] name value noIndex).statusCode_ =
      if name = ascii ":status" then
        toInt32 (parseUint value)
      else rp.statusCode_ := by
  have hToken :=
    lookupToken_eq_some_iff name .pseudoStatus
  rw [show HeaderToken.pseudoStatus.name =
    ascii ":status" from rfl] at hToken
  rw [← if_congr hToken rfl rfl]
  unfold onHeader
  split <;> simp_all [setStatusCode, setContentLength,
    addHeader]

theorem onHeader_contentLength
    (name value : Bytes)
    (noIndex : Bool) :
    (rp.onHeader [] name value noIndex).contentLength_ =
      if name = ascii "content-length" then
        sizeT (parseUint value)
      else rp.contentLength_ := by
  have hToken :=
    lookupToken_eq_some_iff name .contentLength
  rw [show HeaderToken.contentLength.name =
    ascii "content-length" from rfl] at hToken
  rw [← if_congr hToken rfl rfl]
  unfold onHeader
  split <;> simp_all [setStatusCode, setContentLength,
    addHeader]

/- A view of the response that each field updates by itself. -/
theorem onFields_view
    {β : Type}
    (view : Response → β)
    {update : β → Field → β}
    (hUpdate :
      ∀ (rp : Response) (field : Field),
        view (rp.onHeader [] field.name field.value
            field.noIndex) =
          update (view rp) field)
    (fields : List Field) :
    view (rp.onFields fields) =
      fields.foldl update (view rp) :=
  (List.foldl_hom view fun rp field =>
    (hUpdate rp field).symm).symm

theorem onFields_statusCode (fields : List Field) :
    (rp.onFields fields).statusCode_ =
      keepLast (fun value => toInt32 (parseUint value))
        rp.statusCode_
        (valuesNamed (ascii ":status") fields) := by
  rw [keepLast_valuesNamed]
  exact rp.onFields_view (·.statusCode_)
    (fun rp field => rp.onHeader_statusCode _ _ _) fields

theorem onFields_contentLength (fields : List Field) :
    (rp.onFields fields).contentLength_ =
      keepLast (fun value => sizeT (parseUint value))
        rp.contentLength_
        (valuesNamed (ascii "content-length") fields) := by
  rw [keepLast_valuesNamed]
  exact rp.onFields_view (·.contentLength_)
    (fun rp field => rp.onHeader_contentLength _ _ _) fields

theorem onFields_header (fields : List Field) :
    (rp.onFields fields).header_ =
      (fields.map fun field =>
        (field.name,
          HeaderValue.mk field.value field.noIndex)).foldl
        (fun map entry => map.emplace entry.1 entry.2)
        rp.header_ := by
  rw [List.foldl_map]
  exact rp.onFields_view (·.header_)
    (fun rp field => rp.onHeader_header _ _ _) fields

/- Every field of a block is recorded under its name. -/
theorem onFields_valuesOf
    (fields : List Field)
    (name : Bytes) :
    (rp.onFields fields).header_.valuesOf name =
      rp.header_.valuesOf name ++
        (fields.filter (·.name = name)).map
          fun field => ⟨field.value, field.noIndex⟩ := by
  rw [onFields_header,
    OrderedMultimap.valuesOf_foldl_emplace,
    List.filter_map, List.map_map]
  -- the two filters decide the same equality of names
  congr 3
  funext field
  exact decide_eq_decide.mpr Iff.rfl

theorem onFields_data (fields : List Field) :
    (rp.onFields fields).data_ = rp.data_ := by
  have hKept :
      (rp.onFields fields).data_ =
        fields.foldl (fun data _ => data) rp.data_ :=
    rp.onFields_view (·.data_)
      (fun rp field => rp.onHeader_data _ _ _ _) fields
  rw [hKept]
  exact List.foldl_fixed fields

end Response

theorem Decimal.parseUint_text
    (n : Decimal)
    (hFits : (n.value : Int) ≤ int64Max) :
    parseUint n.text = n.value :=
  parseUint_of_fits ⟨n.nonempty, n.digits, hFits⟩

end Network

------------------------------------------------------------
-- Receiving a Message
------------------------------------------------------------

namespace Network

namespace Response

/- What received callbacks do to a response. -/
def receive
    (rp : Response)
    (callbacks : List Callback) : Response :=
  callbacks.foldl
    (fun rp c => (StreamEvent.callback c).onResponse [] rp)
    rp

/- Append chunks to the data. -/
def addChunks
    (rp : Response)
    (chunks : List Bytes) : Response :=
  { rp with data_ := rp.data_ ++ chunks }

variable (rp : Response)

theorem receive_append (first second : List Callback) :
    rp.receive (first ++ second) =
      (rp.receive first).receive second :=
  List.foldl_append

/- Blocks marked as a response are recorded. -/
theorem receive_response
    (id : StreamId)
    (endStream : Bool)
    (fields : List Field) :
    rp.receive
        (blockCallbacks
          (headersFrame id .response endStream) fields) =
      rp.onFields fields := by
  induction fields generalizing rp with
  | nil => rfl
  | cons field fields ih =>
      exact ih (rp.onHeader [] field.name field.value
        field.noIndex)

/- Other blocks are ignored, whatever they are. -/
theorem receive_headers
    (id : StreamId)
    (endStream : Bool)
    (fields : List Field) :
    rp.receive
        (blockCallbacks
          (headersFrame id .headers endStream) fields) =
      rp := by
  induction fields generalizing rp with
  | nil => rfl
  | cons field fields ih => exact ih rp

theorem receive_later
    (id : StreamId)
    (blocks : List ResponseBlock) :
    rp.receive
        (blocks.flatMap (·.callbacks id .headers)) = rp := by
  induction blocks with
  | nil => rfl
  | cons block blocks ih =>
      rw [List.flatMap_cons, receive_append,
        ResponseBlock.callbacks, receive_headers, ih]

theorem receive_chunks
    (id : StreamId)
    (chunks : List Bytes) :
    rp.receive (chunks.map (.dataChunkRecv id ·)) =
      rp.addChunks chunks := by
  induction chunks generalizing rp with
  | nil => simp [receive, addChunks]
  | cons chunk chunks ih =>
      have hRest := ih (rp.addData chunk)
      simp only [addChunks, addData, List.append_assoc,
        List.singleton_append] at hRest ⊢
      exact hRest

theorem receive_frames
    (id : StreamId)
    (frames : List DataFrame) :
    rp.receive (frames.flatMap (·.callbacks id)) =
      rp.addChunks (frames.flatMap (·.chunks)) := by
  induction frames generalizing rp with
  | nil => simp [receive, addChunks]
  | cons frame frames ih =>
      have hFrame :
          rp.receive (frame.callbacks id) =
            rp.addChunks frame.chunks := by
        rw [DataFrame.callbacks, receive_append,
          receive_chunks]
        rfl
      rw [List.flatMap_cons, receive_append, hFrame, ih]
      simp [addChunks]

theorem receive_trailer
    (id : StreamId)
    (trailer : Option (List Field)) :
    rp.receive
        (trailer.toList.flatMap fun fields =>
          blockCallbacks (headersFrame id .headers true)
            fields) = rp := by
  cases trailer with
  | none => rfl
  | some fields =>
      simpa using rp.receive_headers id true fields

end Response

namespace ResponseMessage

variable (message : ResponseMessage)

/- A message leaves its first block and its body. -/
theorem recorded_rp (id : StreamId) :
    ({} : Response).receive (message.callbacks id) =
      (({} : Response).onFields message.first.fields).addChunks
        message.chunks := by
  rw [callbacks, Response.receive_append,
    Response.receive_append, Response.receive_append,
    ResponseBlock.callbacks, Response.receive_response,
    Response.receive_later, Response.receive_frames,
    Response.receive_trailer]
  rfl

/- A recorded block with a body is a response of it. -/
theorem isResponse_recorded
    (block : ResponseBlock)
    (chunks : List Bytes) :
    IsResponse block chunks
      ((({} : Response).onFields block.fields).addChunks
        chunks) where
  statusCode := by
    have hSmall : block.status.value < 10 ^ 3 :=
      block.status_length ▸
        decimalValue_lt block.status.digits
    have hFits : (block.status.value : Int) ≤ int64Max := by
      unfold int64Max
      omega
    change (Response.onFields {} block.fields).statusCode_ = _
    rw [Response.onFields_statusCode, block.status_only]
    simp only [keepLast, List.foldl_cons, List.foldl_nil]
    rw [block.status.parseUint_text hFits,
      toInt32_ofNat (by omega)]
  contentLength := by
    change
      (Response.onFields {} block.fields).contentLength_ = _
    rw [Response.onFields_contentLength,
      block.declared_only]
    cases hDeclared : block.declared with
    | none => rfl
    | some n =>
        have hFits := block.declared_fits n hDeclared
        simp only [keepLast, Option.toList_some,
          List.map_cons, List.map_nil, List.foldl_cons,
          List.foldl_nil, Option.map_some, Option.getD_some]
        rw [n.parseUint_text hFits,
          sizeT_ofNat (by unfold int64Max at hFits; omega)]
  header name := by
    change
      (Response.onFields {} block.fields).header_.valuesOf
        name = _
    simpa using
      Response.onFields_valuesOf {} block.fields name
  data := by
    change
      (Response.onFields {} block.fields).data_ ++ chunks = _
    rw [Response.onFields_data]
    rfl

/- The final block is recorded when it comes first. -/
theorem isAssembled_recorded_iff (id : StreamId) :
    message.IsAssembled
        (({} : Response).receive (message.callbacks id)) ↔
      message.infos = [] := by
  have hFirst :=
    isResponse_recorded message.first message.chunks
  rw [← message.recorded_rp id] at hFirst
  cases hInfos : message.infos with
  | nil =>
      have hSame : message.first = message.final := by
        simp [first, hInfos]
      simpa [IsAssembled, ← hSame] using hFirst
  | cons info infos =>
      have hSame : message.first = info := by
        simp [first, hInfos]
      rw [hSame] at hFirst
      have hInfo : info.informational :=
        message.infos_informational info
          (hInfos ▸ List.mem_cons_self)
      -- the recorded status is informational, the final is not
      have hNot :
          ¬ message.IsAssembled
            (({} : Response).receive
              (message.callbacks id)) := by
        intro hAssembled
        have hStatus :
            (info.status.value : Int) =
              message.final.status.value :=
          hFirst.statusCode.symm.trans
            hAssembled.statusCode
        have hFinal := message.final_final
        unfold ResponseBlock.informational at hFinal hInfo
        omega
      simpa using hNot

end ResponseMessage

end Network

------------------------------------------------------------
-- Assembly
------------------------------------------------------------

namespace Network

/- Events of a stream that receive nothing keep its response. -/
theorem StreamEvent.onResponse_of_not_receivedBy
    {id : StreamId}
    {event : StreamEvent}
    (hTarget : event.target = id)
    (hOther : event.receivedBy id = false)
    (type : Bytes)
    (rp : Response) :
    event.onResponse type rp = rp := by
  cases event with
  | registered opened => rfl
  | callback c =>
      cases c with
      | beforeFrameSend frame => rfl
      | _ =>
          simp only [receivedBy, hTarget, decide_true]
            at hOther
          exact absurd hOther (by decide)

theorem StreamEvent.target_of_receivedBy
    {id : StreamId}
    {event : StreamEvent}
    (hReceived : event.receivedBy id = true) :
    event.target = id := by
  unfold receivedBy at hReceived
  split at hReceived
  · exact absurd hReceived (by decide)
  · exact absurd hReceived (by decide)
  · simpa using hReceived

/- Only the received events of a stream fill its response. -/
theorem StreamEvent.foldl_onResponse_receivedBy
    (id : StreamId)
    (type : Bytes)
    (events : List StreamEvent)
    (rp : Response) :
    (events.filter (·.target = id)).foldl
        (fun rp event => event.onResponse type rp) rp =
      (events.filter (·.receivedBy id)).foldl
        (fun rp event => event.onResponse type rp) rp := by
  induction events generalizing rp with
  | nil => rfl
  | cons event events ih =>
      by_cases hReceived : event.receivedBy id = true
      · have hTarget := target_of_receivedBy hReceived
        simp [hReceived, hTarget, ih]
      · have hOther : event.receivedBy id = false := by
          simpa using hReceived
        by_cases hTarget : event.target = id
        · simp [hOther, hTarget, ih,
            onResponse_of_not_receivedBy hTarget hOther]
        · simp [hOther, hTarget, ih]

theorem ResponseMessage.close_notMem
    (message : ResponseMessage)
    (id : StreamId) :
    Callback.streamClose id ∉ message.callbacks id := by
  simp [callbacks, ResponseBlock.callbacks, blockCallbacks,
    DataFrame.callbacks]

namespace CallbackState

variable (s : CallbackState)

/-
  The callbacks of a response leave it in the stream's entry,
  whatever happens to other streams and whatever is sent
  meanwhile, exactly when no informational block came first.
-/
theorem isAssembled_iff
    (hOverride : s.overrideMimeType = [])
    (id : StreamId)
    (strm : Stream)
    (hFind : s.findStream id = some strm)
    (hFresh : strm.rp = {})
    (message : ResponseMessage)
    (events : List StreamEvent)
    (hEvents :
      events.filter (·.receivedBy id) =
        (message.callbacks id).map .callback) :
    ∃ strm', (s.run events).findStream id = some strm' ∧
      (message.IsAssembled strm'.rp ↔
        message.infos = []) := by
  have hOpen : .close id ∉ events := by
    intro hMem
    have hReceived :
        StreamEvent.close id ∈
          events.filter (·.receivedBy id) :=
      List.mem_filter.mpr
        ⟨hMem, by simp [StreamEvent.receivedBy,
          StreamEvent.target]⟩
    rw [hEvents] at hReceived
    rcases List.mem_map.mp hReceived with
      ⟨c, hCallback, hSame⟩
    rw [StreamEvent.callback.injEq] at hSame
    exact message.close_notMem id (hSame ▸ hCallback)
  rcases s.findStream_run_rp events hOpen hFind with
    ⟨strm', hFind', hResponse⟩
  refine ⟨strm', hFind', ?_⟩
  have hReceive :
      strm'.rp =
        ({} : Response).receive (message.callbacks id) := by
    rw [hResponse, StreamEvent.foldl_onResponse_receivedBy,
      hEvents, hOverride, hFresh, List.foldl_map]
    rfl
  rw [hReceive]
  exact message.isAssembled_recorded_iff id

/- A status field with three digits. -/
def statusField (status : Decimal) : Field :=
  { name := ascii ":status", value := status.text }

/- A block of a status alone. -/
def statusBlock
    (status : Decimal)
    (hLength : status.text.length = 3) : ResponseBlock where
  fields := [statusField status]
  status := status
  status_only := by
    simp [valuesNamed, statusField]
  status_length := hLength
  declared_only := by
    have hName : ascii ":status" ≠ ascii "content-length" := by
      decide
    simp [valuesNamed, statusField, hName]
  declared_fits := by simp

def okStatus : Decimal :=
  ⟨ascii "200", by decide, List.all_eq_true.mp rfl⟩

def hintsStatus : Decimal :=
  ⟨ascii "103", by decide, List.all_eq_true.mp rfl⟩

/- `200` with a body in two chunks. -/
def plainMessage : ResponseMessage where
  final := statusBlock okStatus rfl
  frames := [⟨[ascii "a", ascii "b"], true⟩]
  infos_informational := by simp
  final_final := by
    unfold ResponseBlock.informational
    decide

theorem isAssembled_iff_plain :
    ∃ strm',
      (({} : CallbackState).addStream (Stream.create 1)
        |>.run ((plainMessage.callbacks 1).map .callback)
        |>.findStream 1) = some strm' ∧
      (plainMessage.IsAssembled strm'.rp ↔
        plainMessage.infos = []) :=
  isAssembled_iff
    (({} : CallbackState).addStream (Stream.create 1))
    rfl 1 (Stream.create 1) rfl rfl plainMessage
    ((plainMessage.callbacks 1).map .callback) (by decide)

/- `103` followed by `200`. -/
def hintedMessage : ResponseMessage where
  infos := [statusBlock hintsStatus rfl]
  final := statusBlock okStatus rfl
  infos_informational := by
    simp only [List.mem_singleton, forall_eq]
    unfold ResponseBlock.informational
    decide
  final_final := by
    unfold ResponseBlock.informational
    decide

/- The status of the informational block stays. -/
theorem hintedMessage_not_assembled :
    ∃ strm',
      (({} : CallbackState).addStream (Stream.create 1)
        |>.run ((hintedMessage.callbacks 1).map .callback)
        |>.findStream 1) = some strm' ∧
      ¬ hintedMessage.IsAssembled strm'.rp := by
  refine ⟨_, rfl, ?_⟩
  intro hAssembled
  exact absurd hAssembled.statusCode (by decide)

end CallbackState

end Network
