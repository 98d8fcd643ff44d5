import XMLHttpRequest.Http.Lookup
import XMLHttpRequest.Session.SavedFields

/-
  What the request of a promised stream reports of the block
  that it was promised with.

  Key definitions include:
    * `Network.promisedFields`
    * `Network.PromiseBlock`
    * `Network.PromiseBlock.Reports`

  Key theorems include:
    * `Network.CallbackState.findStream_promise`
    * `Network.CallbackState.promise_never_reported`
-/

------------------------------------------------------------
-- Recording a Promise
------------------------------------------------------------

namespace Network

/- The names for which only a setter is called, or nothing. -/
def isSetName (name : Bytes) : Bool :=
  match lookupToken name with
  | some .pseudoMethod => true
  | some .pseudoScheme => true
  | some .pseudoPath => true
  | some .pseudoAuthority => true
  | _ => false

/- What the header keeps of a promised field. -/
def promisedFields (field : Field) :
    List (Bytes × HeaderValue) :=
  if isSetName field.name then [] else [field.entry]

namespace Request

variable {rq : Request}

/- Record the fields of a promised block. -/
def onPromise
    (rq : Request)
    (fields : List Field) : Request :=
  fields.foldl
    (fun rq field =>
      rq.onHeader field.name field.value field.noIndex)
    rq

theorem onHeader_promised
    (hKept : rq.Kept)
    (field : Field) :
    (rq.onHeader field.name field.value field.noIndex).Kept ∧
      (rq.onHeader field.name field.value
          field.noIndex).header_ =
        rq.header_.addAll (promisedFields field) := by
  unfold onHeader promisedFields isSetName
  generalize lookupToken field.name = token
  split
  · exact ⟨hKept, rfl⟩
  · exact ⟨hKept, rfl⟩
  · exact ⟨hKept, rfl⟩
  · exact ⟨hKept, rfl⟩
  · rcases hKept.lookedUp with ⟨hLooked, hSame⟩
    have hSet :
        (if rq.host.1 = [] then
            rq.host.2.assignHost field.value
          else rq.host.2) = rq.host.2 := by
      split <;> rfl
    simp only [hSet]
    refine ⟨hLooked.addHeader _ _, ?_⟩
    simp only [addHeader, hSame]
    rfl
  · refine ⟨hKept.addHeader _ _, ?_⟩
    -- the names that are only set have been dealt with
    split
    · contradiction
    · contradiction
    · contradiction
    · contradiction
    · rfl

theorem onPromise_keeps
    (hKept : rq.Kept)
    (fields : List Field) :
    (rq.onPromise fields).Kept ∧
      (rq.onPromise fields).header_ =
        rq.header_.addAll
          (fields.flatMap promisedFields) := by
  induction fields generalizing rq with
  | nil => exact ⟨hKept, rfl⟩
  | cons field fields ih =>
      rcases onHeader_promised hKept field with
        ⟨hNext, hHeader⟩
      rcases ih hNext with ⟨hLast, hRest⟩
      refine ⟨hLast, hRest.trans ?_⟩
      rw [hHeader, List.flatMap_cons, Header.addAll_append]

end Request

/- The names that are only set are those of pseudo-headers. -/
theorem isSetName_head
    {name : Bytes}
    (hSet : isSetName name = true) :
    name.head? = some 58 := by
  have hNamed :
      ∀ token, lookupToken name = some token →
        name = token.name :=
    fun token => (lookupToken_eq_some_iff name token).mp
  unfold isSetName at hSet
  split at hSet
  · rw [hNamed _ ‹_›]
    rfl
  · rw [hNamed _ ‹_›]
    rfl
  · rw [hNamed _ ‹_›]
    rfl
  · rw [hNamed _ ‹_›]
    rfl
  · cases hSet

/- A name is kept with all of its fields, or with none. -/
theorem valuesOf_promised
    (fields : List Field)
    (name : Bytes) :
    (Header.addAll OrderedMultimap.empty
        (fields.flatMap promisedFields)).valuesOf name =
      if isSetName name then []
      else
        (fields.filter (·.name = name)).map
          fun field => ⟨field.value, field.noIndex⟩ := by
  rw [Header.addAll, OrderedMultimap.valuesOf_foldl_emplace,
    OrderedMultimap.valuesOf_empty, List.nil_append]
  induction fields with
  | nil => split <;> rfl
  | cons field fields ih =>
      rw [List.flatMap_cons, List.filter_append,
        List.map_append, ih]
      by_cases hName : field.name = name
      · subst hName
        cases hSet : isSetName field.name <;>
          simp [promisedFields, hSet, Field.entry]
      · have hOther :
            ∀ entry ∈ promisedFields field,
              entry.1 ≠ name := by
          unfold promisedFields Field.entry
          split <;> simp [hName]
        have hSkipped :
            (field :: fields).filter (·.name = name) =
              fields.filter (·.name = name) :=
          List.filter_cons_of_neg (by simpa using hName)
        rw [hSkipped, List.filter_eq_nil_iff.mpr
          (fun entry hEntry => by
            simpa using hOther entry hEntry)]
        rfl

end Network

------------------------------------------------------------
-- Received Promises
------------------------------------------------------------

namespace Network

/-
  A block of a pushed request as nghttp2 lets it through: one
  `:method` and one `:scheme`, neither of them empty, and one
  `:authority` at most.
-/
structure PromiseBlock where
  fields : List Field
  method : Bytes
  scheme : Bytes
  authority : Option Bytes := none
  method_only :
    valuesNamed (ascii ":method") fields = [method]
  scheme_only :
    valuesNamed (ascii ":scheme") fields = [scheme]
  authority_only :
    valuesNamed (ascii ":authority") fields =
      authority.toList
  method_some : method ≠ []
  scheme_some : scheme ≠ []

/- The callbacks of a promise, as the promised stream meets them. -/
def ReceivesPromise
    (frame : Frame)
    (fields : List Field)
    (events : List StreamEvent) : Prop :=
  events.filter (·.target = frame.promisedStreamId) =
    .callback (.beginHeaders frame) ::
      fields.map fun field =>
        .callback
          (.header frame field.name field.value field.noIndex)

namespace PromiseBlock

/- Every field is kept whose name begins with no colon. -/
def KeepsRegular
    (block : PromiseBlock)
    (rq : Request) : Prop :=
  ∀ name, name.head? ≠ some 58 →
    rq.header_.valuesOf name =
      (block.fields.filter (·.name = name)).map
        fun field => ⟨field.value, field.noIndex⟩

/- The value of the host field, else `""`. -/
def hostValue (block : PromiseBlock) : Bytes :=
  (valuesNamed (ascii "host") block.fields).headD []

/- The request reports the block that promised it. -/
structure Reports
    (block : PromiseBlock)
    (rq : Request) : Prop where
  method : rq.method.1 = block.method
  scheme : rq.scheme.1 = block.scheme
  host :
    rq.host.1 = block.authority.getD block.hostValue
  regular : block.KeepsRegular rq

/- What it reports instead. -/
structure Leaves
    (block : PromiseBlock)
    (rq : Request) : Prop where
  method : rq.method.1 = []
  scheme : rq.scheme.1 = []
  host : rq.host.1 = block.hostValue
  regular : block.KeepsRegular rq

end PromiseBlock

namespace CallbackState

variable (s : CallbackState)

/- A promised block is recorded in the request of its stream. -/
theorem findStream_promise
    {frame : Frame}
    {fields : List Field}
    {events : List StreamEvent}
    (hType : frame.type = .pushPromise)
    (hNew : s.findStream frame.promisedStreamId = none)
    (hPromise : ReceivesPromise frame fields events) :
    ∃ strm,
      (s.run events).findStream frame.promisedStreamId =
          some strm ∧
        strm.rq = ({} : Request).onPromise fields := by
  have hFields :
      ∀ (fields : List Field) (strm : Stream),
        ∃ strm',
          (fields.map fun field =>
              StreamEvent.callback
                (.header frame field.name field.value
                  field.noIndex)).foldl
              (fun entry event =>
                event.effect s.overrideMimeType entry)
              (some strm) = some strm' ∧
            strm'.rq = strm.rq.onPromise fields := by
    intro fields
    induction fields with
    | nil => exact fun strm => ⟨strm, rfl, rfl⟩
    | cons field fields ih =>
        intro strm
        simp only [List.map_cons, List.foldl_cons,
          StreamEvent.effect, hType, Option.map_some]
        exact ih _
  rw [findStream_run, hPromise, List.foldl_cons, hNew]
  rcases hFields fields (Stream.create frame.headersTarget)
    with ⟨strm, hFound, hRequest⟩
  exact ⟨strm, hFound, hRequest⟩

/-
  The setters do nothing: of no promised block are the method
  and the scheme reported, but the regular fields are kept and
  the host is that of a host field.
-/
theorem promise_never_reported
    {frame : Frame}
    (block : PromiseBlock)
    {events : List StreamEvent}
    (hType : frame.type = .pushPromise)
    (hNew : s.findStream frame.promisedStreamId = none)
    (hPromise : ReceivesPromise frame block.fields events) :
    ∃ strm,
      (s.run events).findStream frame.promisedStreamId =
          some strm ∧
        block.Leaves strm.rq ∧ ¬ block.Reports strm.rq := by
  rcases s.findStream_promise hType hNew hPromise with
    ⟨strm, hFound, hRequest⟩
  have hFresh : ({} : Request).Kept := ⟨rfl, rfl, .inl rfl⟩
  rcases Request.onPromise_keeps hFresh block.fields with
    ⟨hKept, hHeader⟩
  rw [← hRequest] at hKept hHeader
  have hValues :
      ∀ name,
        strm.rq.header_.valuesOf name =
          if isSetName name then []
          else
            (block.fields.filter (·.name = name)).map
              fun field => ⟨field.value, field.noIndex⟩ := by
    intro name
    rw [hHeader]
    exact valuesOf_promised block.fields name
  rcases hKept.getters with ⟨hMethod, hScheme, hHost⟩
  have hLeaves : block.Leaves strm.rq := by
    refine ⟨?_, ?_, ?_, ?_⟩
    · rw [hMethod, Header.find_eq_headD, hValues,
        if_pos (by decide +kernel)]
      rfl
    · rw [hScheme, Header.find_eq_headD, hValues,
        if_pos (by decide +kernel)]
      rfl
    · rw [hHost, Header.find_eq_headD, hValues,
        if_neg (by decide +kernel), List.map_map]
      rfl
    · intro name hRegular
      rw [hValues,
        if_neg fun hSet => hRegular (isSetName_head hSet)]
  refine ⟨strm, hFound, hLeaves, ?_⟩
  intro hReports
  exact block.method_some
    (hReports.method.symm.trans hLeaves.method)

end CallbackState

/- A promise of `https://a.com/`. -/
def pushedBlock : PromiseBlock where
  fields :=
    [ { name := ascii ":method", value := ascii "GET" },
      { name := ascii ":scheme", value := ascii "https" },
      { name := ascii ":authority", value := ascii "a.com" },
      { name := ascii ":path", value := ascii "/" },
      { name := ascii "accept", value := ascii "*/*" } ]
  method := ascii "GET"
  scheme := ascii "https"
  authority := some (ascii "a.com")
  method_only := by decide +kernel
  scheme_only := by decide +kernel
  authority_only := by decide +kernel
  method_some := by decide
  scheme_some := by decide

def promiseFrame : Frame where
  streamId := 1
  promisedStreamId := 2
  type := .pushPromise

def promiseEvents : List StreamEvent :=
  .callback (.beginHeaders promiseFrame) ::
    pushedBlock.fields.map fun field =>
      .callback
        (.header promiseFrame field.name field.value
          field.noIndex)

theorem pushed_never_reported :
    ∃ strm,
      (({} : CallbackState).run promiseEvents).findStream 2 =
          some strm ∧
        pushedBlock.Leaves strm.rq ∧
          ¬ pushedBlock.Reports strm.rq :=
  ({} : CallbackState).promise_never_reported
    pushedBlock rfl rfl
    (show ReceivesPromise promiseFrame _ promiseEvents by
      unfold ReceivesPromise; decide +kernel)

/- The promised stream reports neither of the two. -/
theorem pushed_request_unreported :
    ∃ strm,
      (({} : CallbackState).run promiseEvents).findStream 2 =
          some strm ∧
        strm.rq.method.1 ≠ pushedBlock.method ∧
        strm.rq.scheme.1 ≠ pushedBlock.scheme ∧
        strm.rq.host.1 ≠ ascii "a.com" :=
  ⟨_, rfl, by decide +kernel, by decide +kernel,
    by decide +kernel⟩

end Network
