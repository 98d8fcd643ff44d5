import XMLHttpRequest.Request.Operations
import XMLHttpRequest.Session.Locking
import XMLHttpRequest.Session.StreamView

/-
  What `submit` tells its callers about the request.

  Key definitions include:
    * `Network.HttpTlsSession.HasSubmitted`
    * `Network.HttpTlsSession.ReportsSubmission`

  Key theorems include:
    * `Network.HttpTlsSession.submit_reports_iff`
    * `Network.Impl.submitRequest_of_negative`
    * `Network.Impl.submitRequest_of_refused`
-/

------------------------------------------------------------
-- The Exits of Submit
------------------------------------------------------------

namespace Network

namespace HttpTlsSession

variable (s : HttpTlsSession)

theorem submit_of_stopped
    (hStopped : s.stopped = true)
    (arguments : SubmitArguments)
    (submission : Submission) :
    s.submit arguments submission = some (s, {}, 0) := by
  rw [submit, if_pos hStopped]

theorem submit_of_rejected
    (hRuns : s.stopped = false)
    {arguments : SubmitArguments}
    (hUrl : submittableUrl arguments.url = none)
    (submission : Submission) :
    s.submit arguments submission =
      some (s, .invalidArgument, -1) := by
  simp only [submit, hRuns, hUrl, Bool.false_eq_true,
    if_false]

theorem submit_of_refused
    (hRuns : s.stopped = false)
    {arguments : SubmitArguments}
    {u : HttpParserUrl}
    (hUrl : submittableUrl arguments.url = some u)
    {submission : Submission}
    (hRefused : submission.assignedId < 0) :
    s.submit arguments submission = some (s, {}, 0) := by
  simp only [submit, hRuns, hUrl, Bool.false_eq_true,
    if_false, hRefused, if_true]

/- What nghttp2 is given for a URL that is accepted. -/
def requestFor
    (arguments : SubmitArguments)
    (u : HttpParserUrl)
    (submission : Submission) : SubmittedRequest :=
  { id := submission.assignedId
    priority := arguments.priority
    nva := submittedNva arguments u submission.stale
    body := arguments.body }

/-
  The inner write of a running session: nothing where the
  mutex is held elsewhere or a write is under way, else it
  waits for the lock that `submit` has taken.
-/
theorem writeLocked_of_running
    (hRuns : s.stopped = false)
    (sends : List Send) :
    s.writeLocked sends =
      if s.insideCb || s.writing then some s else none := by
  cases hHeld : s.insideCb with
  | true => simp [writeLocked, hHeld]
  | false =>
      cases hWriting : s.writing with
      | true =>
          have hWrite : s.hold.write sends = some s.hold := by
            simp only [write, hold, hRuns, hWriting,
              Bool.false_eq_true, if_false, if_true]
          have hSame : s.hold.unlock = s := by
            unfold hold unlock
            rw [← hHeld]
          rw [writeLocked, hHeld, hWrite, Option.map_some,
            hSame]
          rfl
      | false =>
          have hNone : s.hold.write sends = none := by
            rw [← Option.not_isSome_iff_eq_none,
              s.hold.write_isSome_iff]
            simp [hold, hRuns, hWriting]
          simp [writeLocked, hHeld, hNone]

theorem submit_of_accepted
    (hRuns : s.stopped = false)
    {arguments : SubmitArguments}
    {u : HttpParserUrl}
    (hUrl : submittableUrl arguments.url = some u)
    {submission : Submission}
    (hTaken : ¬ submission.assignedId < 0) :
    s.submit arguments submission =
      if s.insideCb || s.writing then
        some
          ((s.receiveRequest
              (requestFor arguments u
                submission)).registerStream
            submission.assignedId,
            {}, submission.assignedId)
      else none := by
  simp only [submit, hRuns, hUrl, Bool.false_eq_true,
    if_false, hTaken]
  rw [writeLocked_of_running _ (by exact hRuns)]
  by_cases hIdle : (s.insideCb || s.writing) = true
  · rw [if_pos hIdle, if_pos (by exact hIdle)]
    rfl
  · rw [if_neg hIdle, if_neg (by exact hIdle)]
    rfl

/-
  What `submit` gives to nghttp2, before the inner write, be
  it that the write returns or not.
-/
def given
    (arguments : SubmitArguments)
    (submission : Submission) : List SubmittedRequest :=
  if s.stopped then []
  else
    match submittableUrl arguments.url with
    | none => []
    | some u =>
        if submission.assignedId < 0 then []
        else [requestFor arguments u submission]

variable {s} {s' : HttpTlsSession}
variable {arguments : SubmitArguments}
variable {submission : Submission}

theorem given_of_accepted
    {u : HttpParserUrl}
    (hRuns : s.stopped = false)
    (hUrl : submittableUrl arguments.url = some u)
    (hTaken : ¬ submission.assignedId < 0) :
    s.given arguments submission =
      [requestFor arguments u submission] := by
  simp [given, hRuns, hUrl, hTaken]

theorem accepted_of_given
    {request : SubmittedRequest}
    (hGiven : request ∈ s.given arguments submission) :
    ∃ u, s.stopped = false ∧
      submittableUrl arguments.url = some u ∧
        ¬ submission.assignedId < 0 := by
  unfold given at hGiven
  split at hGiven
  · cases hGiven
  · rename_i hRuns
    split at hGiven
    · cases hGiven
    · rename_i u hUrl
      split at hGiven
      · cases hGiven
      · exact ⟨u, by simpa using hRuns, hUrl, ‹_›⟩

/- When `submit` returns, nghttp2 has what it was given. -/
theorem submit_given
    {result : ErrorCode × Int}
    (hSubmit :
      s.submit arguments submission = some (s', result)) :
    s'.nghttp2.requests =
      s.nghttp2.requests ++ s.given arguments submission := by
  cases hStopped : s.stopped with
  | true =>
      rw [s.submit_of_stopped hStopped] at hSubmit
      cases hSubmit
      simp [given, hStopped]
  | false =>
      cases hUrl : submittableUrl arguments.url with
      | none =>
          rw [s.submit_of_rejected hStopped hUrl] at hSubmit
          cases hSubmit
          simp [given, hStopped, hUrl]
      | some u =>
          by_cases hRefused : submission.assignedId < 0
          · rw [s.submit_of_refused hStopped hUrl
              hRefused] at hSubmit
            cases hSubmit
            simp [given, hStopped, hUrl, hRefused]
          · rw [given_of_accepted hStopped hUrl hRefused]
            rw [s.submit_of_accepted hStopped hUrl
              hRefused] at hSubmit
            split at hSubmit
            · cases hSubmit
              rfl
            · cases hSubmit

end HttpTlsSession

end Network

------------------------------------------------------------
-- The Report
------------------------------------------------------------

namespace Network

namespace HttpTlsSession

/-
  nghttp2 has taken one more request, and there is a stream
  for it.
-/
def HasSubmitted (s s' : HttpTlsSession) (id : Int) : Prop :=
  ∃ request : SubmittedRequest,
    request.id = id ∧
      s'.nghttp2.requests =
        s.nghttp2.requests ++ [request] ∧
      (s'.findStream id.toNat).isSome = true

/-
  `submit` returns, with success and a positive identifier
  exactly when it has submitted the request, and with a
  negative identifier else.
-/
def ReportsSubmission
    (s : HttpTlsSession)
    (arguments : SubmitArguments)
    (submission : Submission) : Prop :=
  ∃ s' ec id,
    s.submit arguments submission = some (s', ec, id) ∧
      ((ec.failed = false ∧ 0 < id) ↔
        HasSubmitted s s' id) ∧
      (¬ (ec.failed = false ∧ 0 < id) → id < 0)

theorem not_hasSubmitted_self
    (s : HttpTlsSession)
    (id : Int) :
    ¬ HasSubmitted s s id := by
  rintro ⟨request, -, hRequests, -⟩
  have hLength := congrArg List.length hRequests
  simp at hLength

/- The new request has a stream. -/
theorem hasSubmitted_register
    (s : HttpTlsSession)
    (request : SubmittedRequest) :
    HasSubmitted s
      ((s.receiveRequest request).registerStream request.id)
      request.id := by
  refine ⟨request, rfl, rfl, ?_⟩
  have hFound :=
    (s.receiveRequest request).toCallbackState
      |>.findStream_addStream (Stream.create request.id.toNat)
        request.id.toNat
  have hOwn :
      request.id.toNat =
        (Stream.create request.id.toNat).streamId := rfl
  rw [if_pos hOwn] at hFound
  simp only [registerStream, hFound, Option.isSome_some]

/- Identifier zero is neither positive nor negative. -/
theorem not_reports_of_zero
    {s s' : HttpTlsSession}
    {arguments : SubmitArguments}
    {submission : Submission}
    {ec : ErrorCode}
    (hSubmit :
      s.submit arguments submission = some (s', ec, 0)) :
    ¬ s.ReportsSubmission arguments submission := by
  rintro ⟨s'', ec', id, hReport, -, hNegative⟩
  rw [hSubmit] at hReport
  cases hReport
  exact absurd (hNegative (by simp)) (by decide)

/-
  The report is right for a running session, if the URL is
  rejected or nghttp2 takes the request and the inner write
  has nothing to do.
-/
theorem submit_reports_iff
    (s : HttpTlsSession)
    (arguments : SubmitArguments)
    (submission : Submission)
    (hId : submission.assignedId ≠ 0) :
    s.ReportsSubmission arguments submission ↔
      s.stopped = false ∧
        (submittableUrl arguments.url = none ∨
          (0 < submission.assignedId ∧
            (s.insideCb = true ∨ s.writing = true))) := by
  cases hStopped : s.stopped with
  | true =>
      exact iff_of_false
        (not_reports_of_zero
          (s.submit_of_stopped hStopped arguments _))
        (fun h => by cases h.1)
  | false =>
      cases hUrl : submittableUrl arguments.url with
      | none =>
          refine iff_of_true ?_ ⟨rfl, .inl rfl⟩
          refine ⟨s, .invalidArgument, -1,
            s.submit_of_rejected hStopped hUrl submission,
            ?_, fun _ => by decide⟩
          exact iff_of_false (fun h => by cases h.1)
            (not_hasSubmitted_self s _)
      | some u =>
          by_cases hRefused : submission.assignedId < 0
          · refine iff_of_false
              (not_reports_of_zero
                (s.submit_of_refused hStopped hUrl
                  hRefused)) ?_
            rintro ⟨-, hNone | ⟨hPositive, -⟩⟩
            · cases hNone
            · omega
          · have hSubmit :=
              s.submit_of_accepted hStopped hUrl hRefused
            have hPositive : 0 < submission.assignedId := by
              omega
            by_cases hIdle :
                (s.insideCb || s.writing) = true
            · refine iff_of_true ?_
                ⟨rfl, .inr ⟨hPositive, by simpa using hIdle⟩⟩
              rw [if_pos hIdle] at hSubmit
              refine ⟨_, _, _, hSubmit,
                iff_of_true ⟨rfl, hPositive⟩ ?_,
                fun hNot => absurd ⟨rfl, hPositive⟩ hNot⟩
              exact hasSubmitted_register s
                (requestFor arguments u submission)
            · refine iff_of_false ?_ ?_
              · rintro ⟨s', ec, id, hReport, -⟩
                rw [hSubmit, if_neg hIdle] at hReport
                cases hReport
              · rintro ⟨-, hNone | ⟨-, hBusy⟩⟩
                · cases hNone
                · exact hIdle (by simpa using hBusy)

/- A session that is writing and is given a request. -/
theorem submit_reports_writing :
    ({ create (ascii "a") (ascii "443") zeroGarbage with
        stopped := false
        writing := true } :
        HttpTlsSession).ReportsSubmission
      { url := ascii "https://a.com/"
        method := ascii "GET" }
      { assignedId := 1 } :=
  (submit_reports_iff _ _ _ (by decide)).mpr
    ⟨rfl, .inr ⟨by decide, .inr rfl⟩⟩

/- A running session whose request nghttp2 refuses. -/
theorem submit_refused_unreported :
    ¬ ∀ (s : HttpTlsSession)
        (arguments : SubmitArguments)
        (submission : Submission),
      submission.assignedId ≠ 0 →
        s.ReportsSubmission arguments submission := by
  intro hAll
  let s : HttpTlsSession :=
    { create (ascii "a") (ascii "443") zeroGarbage with
      stopped := false }
  let arguments : SubmitArguments :=
    { url := ascii "https://a.com/"
      method := ascii "GET" }
  have hUrl : (submittableUrl arguments.url).isSome := by
    decide +kernel
  rcases Option.isSome_iff_exists.mp hUrl with ⟨u, hUrl⟩
  let submission : Submission := { assignedId := -509 }
  have hRefused : submission.assignedId < 0 := by decide
  exact not_reports_of_zero
    (s.submit_of_refused rfl hUrl hRefused)
    (hAll s arguments submission (by decide))

end HttpTlsSession

end Network

------------------------------------------------------------
-- The Callers
------------------------------------------------------------

namespace Network

namespace Impl

variable (d : Impl)

/- What a fetch gives to `submit`. -/
def fetchArguments (body : Bool) : SubmitArguments :=
  { url := d.submittedUrl
    method := stringFromEnum (methodFromString d.method)
    header := d.header
    body := body }

/- A fetch tests nothing but the sign of the identifier. -/
theorem submitRequest_eq
    (hMethod : methodFromString d.method ≠ .unknown)
    (s : HttpTlsSession)
    (body : Bool)
    (submission : Submission) :
    d.submitRequest s body submission =
      d.onSession s fun s =>
        (s.submit (d.fetchArguments body) submission).map
          fun (s, _, id) => if id < 0 then s.stop else s := by
  unfold submitRequest fetchArguments
  split
  · exact absurd ‹_› hMethod
  · rfl

/- A negative identifier stops the session. -/
theorem submitRequest_of_negative
    (hMethod : methodFromString d.method ≠ .unknown)
    {s s' : HttpTlsSession}
    {body : Bool}
    {submission : Submission}
    {ec : ErrorCode}
    {id : Int}
    (hSubmit :
      (d.enter s).submit (d.fetchArguments body) submission =
        some (s', ec, id))
    (hNegative : id < 0) :
    d.submitRequest s body submission =
      some (d.absorb s.log.length s'.stop) := by
  rw [d.submitRequest_eq hMethod, onSession, hSubmit]
  simp only [Option.map_some, if_pos hNegative]

/-
  A request that nghttp2 refuses leaves the session running,
  to wait for an answer that does not come.
-/
theorem submitRequest_of_refused
    (hMethod : methodFromString d.method ≠ .unknown)
    {s : HttpTlsSession}
    (hRuns : s.stopped = false)
    {u : HttpParserUrl}
    (hUrl : submittableUrl d.submittedUrl = some u)
    (body : Bool)
    {submission : Submission}
    (hRefused : submission.assignedId < 0) :
    d.submitRequest s body submission =
      some (d.absorb s.log.length (d.enter s)) := by
  have hSubmit :
      (d.enter s).submit (d.fetchArguments body) submission =
        some (d.enter s, {}, 0) :=
    (d.enter s).submit_of_refused hRuns hUrl hRefused
  rw [d.submitRequest_eq hMethod, onSession, hSubmit]
  rfl

end Impl

end Network
