import XMLHttpRequest.Request.ReadyOrder
import XMLHttpRequest.Session.Closures

/-
  What the ready callback of a session reports.

  An answer is one invocation of its closure.  The response of
  a request is that of the last answer, and the close of a
  stream in the map is what gives one.

  Key definitions include:
    * `Network.Answer`
    * `Network.answersOf`
    * `Network.CallbackState.answer?`

  Key theorems include:
    * `Network.CallbackState.answersOf_apply`
    * `Network.Impl.absorb_response`
    * `Network.Impl.deliver_answers`
-/

------------------------------------------------------------
-- Answers
------------------------------------------------------------

namespace Network

/- What an invoked ready closure reports of a stream. -/
structure Answer where
  closure : ReadyCallback
  id : StreamId
  rq : Request
  rp : Response
  deriving DecidableEq

def Invocation.answer? : Invocation → Option Answer
  | .call (.ready closure id rq rp) =>
      some ⟨closure, id, rq, rp⟩
  | _ => none

/- The answers of a log, in order. -/
def answersOf (log : List Invocation) : List Answer :=
  log.filterMap (·.answer?)

theorem answersOf_append (first second : List Invocation) :
    answersOf (first ++ second) =
      answersOf first ++ answersOf second :=
  List.filterMap_append

theorem any_isReady_eq (calls : List Call) :
    calls.any (·.isReady) =
      ! (answersOf (calls.map .call)).isEmpty := by
  induction calls with
  | nil => rfl
  | cons call calls ih =>
      cases call with
      | stateChange closure state => exact ih
      | ready closure id rq rp => rfl

namespace CallbackState

variable (s : CallbackState)

/- The answer that a callback gives. -/
def answer? : Callback → Option Answer
  | .streamClose id =>
      match s.findStream id, s.onReadyCb with
      | some strm, some closure =>
          some ⟨closure, id, strm.rq, strm.rp⟩
      | _, _ => none
  | _ => none

theorem answersOf_callStateChange (state : ReadyState) :
    answersOf ((s.callStateChange state).map .call) = [] := by
  unfold callStateChange
  split <;> rfl

/- Only the close of a stream in the map is reported. -/
theorem answersOf_apply (c : Callback) :
    answersOf ((s.apply c).2.map .call) =
      (s.answer? c).toList := by
  cases c with
  | beginHeaders frame => rfl
  | header frame name value noIndex =>
      simp only [apply, onHeaderCallback, answer?]
      split
      · exact s.answersOf_callStateChange _
      · rfl
      · rfl
  | frameRecv frame => rfl
  | dataChunkRecv id data =>
      exact s.answersOf_callStateChange _
  | streamClose id =>
      simp only [apply, onStreamCloseCallback, answer?]
      cases hFind : s.findStream id with
      | none => rfl
      | some strm =>
          rw [List.map_append, answersOf_append,
            answersOf_callStateChange, List.nil_append]
          unfold callReady
          cases s.onReadyCb <;> rfl
  | beforeFrameSend frame => rfl

/- A ready closure is invoked if there is an answer. -/
theorem any_isReady_apply (c : Callback) :
    (s.apply c).2.any (·.isReady) =
      (s.answer? c).isSome := by
  rw [any_isReady_eq, answersOf_apply]
  cases s.answer? c <;> rfl

end CallbackState

/- A closure that stops the session does so when invoked. -/
theorem HttpTlsSession.runCallback_stopped
    (s : HttpTlsSession)
    (c : Callback) :
    (s.runCallback c).stopped =
      (s.stopped ||
        s.readyStops &&
          (s.toCallbackState.answer? c).isSome) := by
  unfold runCallback
  simp only [s.toCallbackState.any_isReady_apply c]
  split
  · rename_i hStops
    rw [stop_stopped, hStops, Bool.or_true]
  · rename_i hGoesOn
    rw [Bool.not_eq_true] at hGoesOn
    rw [hGoesOn, Bool.or_false]

end Network

------------------------------------------------------------
-- Responses
------------------------------------------------------------

namespace Network

namespace Impl

variable (d : Impl)

/- The response is that of the last answer, if there is one. -/
theorem foldl_notice_response
    (invocations : List Invocation) :
    (invocations.foldl notice d).response =
      ((answersOf invocations).getLast?.map (·.rp)).or
        d.response := by
  induction invocations generalizing d with
  | nil => rfl
  | cons invocation invocations ih =>
      rw [List.foldl_cons, ih]
      cases invocation with
      | call c =>
          cases c with
          | stateChange closure state => rfl
          | ready closure id rq rp =>
              have hCons :
                  answersOf
                      (.call (.ready closure id rq rp) ::
                        invocations) =
                    ⟨closure, id, rq, rp⟩ ::
                      answersOf invocations := rfl
              rw [hCons, List.getLast?_cons]
              cases (answersOf invocations).getLast? <;> rfl
      | started closure => rfl
      | stopped closure => rfl

theorem absorb_response
    {seen : Nat}
    {s : HttpTlsSession}
    {entries : List Invocation}
    (hLog : s.log.drop seen = entries) :
    (d.absorb seen s).response =
      ((answersOf entries).getLast?.map (·.rp)).or
        d.response := by
  rw [← hLog]
  exact d.foldl_notice_response _

/- What a callback reports, stores and stops. -/
theorem deliver_answers
    {s : HttpTlsSession}
    (hSession : d.session = some s)
    (c : Callback) :
    ∃ s', (d.deliver c).session = some s' ∧
      s'.toCallbackState = (s.toCallbackState.apply c).1 ∧
      answersOf s'.log =
        answersOf s.log ++
          (s.toCallbackState.answer? c).toList ∧
      s'.stopped =
        (s.stopped ||
          ! d.isAsync &&
            (s.toCallbackState.answer? c).isSome) ∧
      (d.deliver c).isAsync = d.isAsync ∧
      (d.deliver c).response =
        ((s.toCallbackState.answer? c).map (·.rp)).or
          d.response := by
  have hLog := (d.enter s).runCallback_log c
  have hAnswers := s.toCallbackState.answersOf_apply c
  refine ⟨(d.enter s).runCallback c, ?_,
    (d.enter s).runCallback_toCallbackState c, ?_, ?_, ?_,
    ?_⟩
  · simp only [deliver, hSession, absorb]
  · rw [hLog, answersOf_append]
    exact congrArg (answersOf s.log ++ ·) hAnswers
  · exact (d.enter s).runCallback_stopped c
  · simp only [deliver, hSession]
    rcases d.absorb_eq s.log.length
        ((d.enter s).runCallback c) with ⟨_, _, hFrame⟩
    rw [hFrame]
  · have hDrop :
        ((d.enter s).runCallback c).log.drop s.log.length =
          (s.toCallbackState.apply c).2.map .call := by
      rw [hLog]
      exact List.drop_left
    simp only [deliver, hSession]
    rw [d.absorb_response hDrop, hAnswers]
    cases s.toCallbackState.answer? c <;> rfl

end Impl

end Network
