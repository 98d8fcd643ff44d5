import XMLHttpRequest.Request.HeaderCalls
import XMLHttpRequest.Request.Submissions
import XMLHttpRequest.Request.System
import XMLHttpRequest.Session.OutgoingRequests

/-
  The header fields that a request sends, and those that its
  stream records.

  Key definitions include:
    * `Network.NameValue.stored`
    * `Network.SentRequest`
    * `Network.SendsFields`

  Key theorems include:
    * `Network.sendsFields_submittedNva`
    * `Network.Impl.sends_fieldsSet`
-/

------------------------------------------------------------
-- Sent Lists
------------------------------------------------------------

namespace Network

/- `nghttp2_downcase` -/
def downcase (name : Bytes) : Bytes :=
  name.map fun c => if 65 ≤ c ∧ c ≤ 90 then c + 32 else c

namespace NameValue

/- A field of a header as nghttp2 is given it. -/
def ofField (field : Bytes × HeaderValue) : NameValue where
  name := field.1
  value := field.2.value
  noIndex := field.2.sensitive

/- A field as nghttp2 keeps it, which is as it sends it. -/
def stored (nv : NameValue) : Bytes × Bytes :=
  (downcase nv.name, nv.value)

end NameValue

/-
  A list given to nghttp2: the pseudo fields, and what
  `fields` has.
-/
structure SentRequest where
  method : Bytes
  scheme : Bytes
  path : Bytes
  fields : List (Bytes × HeaderValue)

namespace SentRequest

def nva (sent : SentRequest) : List NameValue :=
  [ { name := ascii ":method", value := sent.method },
    { name := ascii ":scheme", value := sent.scheme },
    { name := ascii ":path", value := sent.path } ] ++
    sent.fields.map NameValue.ofField

/- What a frame with that list shows. -/
def stored (sent : SentRequest) : List (Bytes × Bytes) :=
  sent.nva.map NameValue.stored

/-
  A recorded request has exactly the fields of the list, and
  its getters return the pseudo fields and the first host.
-/
structure RecordedBy
    (sent : SentRequest)
    (rq : Request) : Prop where
  fields :
    OrderedMultimap.Arranges
      (rq.header_.entries.map fun entry =>
        (entry.1, entry.2.value)) sent.stored
  method : rq.method.1 = sent.method
  scheme : rq.scheme.1 = sent.scheme
  host :
    rq.host.1 =
      firstValue (ascii "host")
        (sent.fields.map fun field =>
          (downcase field.1, field.2.value))

variable (sent : SentRequest)

theorem stored_eq :
    sent.stored =
      [ (ascii ":method", sent.method),
        (ascii ":scheme", sent.scheme),
        (ascii ":path", sent.path) ] ++
        sent.fields.map fun field =>
          (downcase field.1, field.2.value) := by
  have hNames :
      [":method", ":scheme", ":path"].map
          (fun name => downcase (ascii name)) =
        [":method", ":scheme", ":path"].map ascii := by
    decide +kernel
  simp only [List.map_cons, List.map_nil,
    List.cons.injEq, and_true] at hNames
  rcases hNames with ⟨hMethod, hScheme, hPath⟩
  simp only [stored, nva, List.map_append, List.map_cons,
    List.map_nil, List.map_map, NameValue.stored, hMethod,
    hScheme, hPath]
  rfl

/- No pseudo field of the list hides another or the host. -/
theorem recordedBy_of_records
    {rq : Request}
    (hRecords : rq.Records sent.stored) :
    sent.RecordedBy rq := by
  refine ⟨hRecords.fields, ?_, ?_, ?_⟩
  · rw [hRecords.method, stored_eq]
    rfl
  · rw [hRecords.scheme, stored_eq]
    rfl
  · rw [hRecords.host, stored_eq]
    simp only [List.cons_append, List.nil_append,
      firstValue_cons]
    rw [if_neg (by decide), if_neg (by decide),
      if_neg (by decide)]

end SentRequest

/-
  The list is the pseudo fields and then the fields that were
  set, ordered by name and for one name as they were set.  The
  stream that sees it sent once records it, also where the
  frame comes before the entry that `submit` makes.
-/
def SendsFields
    (set : List (Bytes × HeaderValue))
    (nva : List NameValue) : Prop :=
  ∃ sent : SentRequest,
    nva = sent.nva ∧
    OrderedMultimap.Arranges sent.fields set ∧
    ∀ (s : CallbackState) (id : StreamId) events,
      s.findStream id = none →
        SeesOnce id (nva.map NameValue.stored) events →
          ∃ strm, (s.run events).findStream id = some strm ∧
            sent.RecordedBy strm.rq

/- A header that was filled field by field is sent so. -/
theorem sendsFields_submittedNva
    (arguments : SubmitArguments)
    {set : List (Bytes × HeaderValue)}
    (hHeader :
      arguments.header =
        Header.addAll OrderedMultimap.empty set)
    (u : HttpParserUrl)
    (stale : Bytes) :
    SendsFields set (submittedNva arguments u stale) := by
  refine ⟨⟨stale.takeD (cString arguments.method).length 0,
    u.component arguments.url .schema,
    submittedPath arguments.url u,
    arguments.header.entries⟩, rfl, ?_, ?_⟩
  · rw [hHeader]
    exact OrderedMultimap.arranges_foldl_emplace set
  · intro s id events hFresh hSees
    rcases s.findStream_sent hFresh hSees with
      ⟨strm, hFound, hRecords⟩
    exact ⟨strm, hFound,
      SentRequest.recordedBy_of_records _ hRecords⟩

end Network

------------------------------------------------------------
-- Fields of a Run
------------------------------------------------------------

namespace Network

namespace Impl

/-
  Whatever calls came before, a request that started without
  fields submits exactly those that were set.
-/
theorem sends_fieldsSet
    {d d' : Impl}
    {events : List RequestEvent}
    (hNew : d.header = OrderedMultimap.empty)
    (hRun : Transition.exec step d events = some d') :
    (∀ body u submission,
      SendsFields (fieldsSet events)
        (HttpTlsSession.requestFor (d'.fetchArguments body) u
          submission).nva) ∧
    (∀ event d'' request,
      d'.stepLater event = some d'' →
        d''.requests = d'.requests ++ [request] →
          SendsFields (fieldsSet events) request.nva) := by
  have hHeader :
      d'.header =
        Header.addAll OrderedMultimap.empty
          (fieldsSet events) := by
    rw [run_header hRun, hNew]
  have hSends (body : Bool) (u : HttpParserUrl)
      (submission : Submission) :
      SendsFields (fieldsSet events)
        (HttpTlsSession.requestFor (d'.fetchArguments body) u
          submission).nva :=
    sendsFields_submittedNva (d'.fetchArguments body) hHeader
      u submission.stale
  refine ⟨hSends, ?_⟩
  intro event d'' request hStep hOneMore
  have hGiven : d'.given event.1 = [request] := by
    rw [(stepLater_given hStep).2] at hOneMore
    exact List.append_cancel_left hOneMore
  have hMem : request ∈ d'.given event.1 := by
    rw [hGiven]
    exact List.mem_singleton_self request
  rcases submits_of_given hMem with
    ⟨outcome, s, u, body, hEvent, hFetches⟩
  rw [hEvent, hFetches.given_eq, List.cons.injEq] at hGiven
  rw [← hGiven.1]
  exact hSends body u outcome.submission

/- A request, and the calls up to its fetch. -/
def namedTwice : Impl :=
  create (ascii "GET") (ascii "https://a.com/") true freshSetup

def calledRun : List RequestEvent :=
  [ .setRequestHeader (ascii "x-b") (ascii "1"),
    .setRequestHeader (ascii "Host") (ascii "a"),
    .setRequestHeader (ascii "x-b") (ascii "2"),
    .send,
    .job { connection := HttpTlsSession.h2Connection } ]

def fetchJob : LaterEvent :=
  ⟨.job
    { submission := { stale := ascii "GET", assignedId := 1 } },
    rfl⟩

/- The HEADERS frame of a request. -/
def requestFrame (request : SubmittedRequest) : Frame where
  streamId := 1
  type := .headers
  nva := request.nva.map NameValue.stored

/-
  The fetch of a request with a field that was set twice, and
  its frame before and after the entry of its stream.
-/
theorem sends_fieldsSet_twice :
    ∃ d request,
      (Transition.exec step namedTwice calledRun).bind
          (stepLater · fetchJob) = some d ∧
        d.requests = [request] ∧
        SendsFields
          [ (ascii "x-b", ⟨ascii "1", false⟩),
            (ascii "Host", ⟨ascii "a", false⟩),
            (ascii "x-b", ⟨ascii "2", false⟩) ]
          request.nva ∧
        ∃ (sent : SentRequest) (first second : Stream),
          (({} : CallbackState).run
            [ .registered 1,
              .callback (.beforeFrameSend
                (requestFrame request)) ]).findStream 1 =
              some first ∧
          (({} : CallbackState).run
            [ .callback (.beforeFrameSend
                (requestFrame request)),
              .registered 1 ]).findStream 1 = some second ∧
          sent.RecordedBy first.rq ∧
          sent.RecordedBy second.rq := by
  have hBefore :
      (Transition.exec step namedTwice calledRun).map
        (·.requests) = some [] := by
    decide +kernel
  have hAfter :
      ((Transition.exec step namedTwice calledRun).bind
          (stepLater · fetchJob)).map
        (·.requests.length) = some 1 := by
    decide +kernel
  rcases Option.map_eq_some_iff.mp hBefore with
    ⟨middle, hMiddle, hNone⟩
  rcases Option.map_eq_some_iff.mp hAfter with
    ⟨d, hFetch, hOne⟩
  rcases List.length_eq_one_iff.mp hOne with
    ⟨request, hRequest⟩
  refine ⟨d, request, hFetch, hRequest, ?_⟩
  rw [hMiddle, Option.bind_some] at hFetch
  have hSends :=
    (sends_fieldsSet (d := namedTwice) rfl hMiddle).2
      fetchJob d request hFetch (by rw [hRequest, hNone]; rfl)
  refine ⟨hSends, ?_⟩
  rcases hSends with ⟨sent, _, _, hRecorded⟩
  have hSees :=
    seesOnce_either_order
      (rfl : (requestFrame request).type = .headers)
  rcases hRecorded {} 1 _ rfl hSees.1 with
    ⟨first, hFirst, hFirstRecorded⟩
  rcases hRecorded {} 1 _ rfl hSees.2 with
    ⟨second, hSecond, hSecondRecorded⟩
  exact ⟨sent, first, second, hFirst, hSecond,
    hFirstRecorded, hSecondRecorded⟩

end Impl

end Network
