import XMLHttpRequest.Library.Pipe
import XMLHttpRequest.Request.Frames
import XMLHttpRequest.Session.BodyProvider

/-
  The bodies that a request posts.

  A send leaves its body in a member of the request, from
  which every stream submitted by `fetchWithBody` takes what
  it yields.  So a body is delivered when the ones before it
  have been by the time it is sent.

  Key definitions include:
    * `Network.PostRun`
    * `Network.PostRun.step`
    * `Network.PostRun.Faithful`
    * `Network.PostRun.SendsAlone`

  Key theorems include:
    * `Network.PostRun.provide_inOrder`
    * `Network.PostRun.step_inOrder`
    * `Network.PostRun.faithful_along`
-/

------------------------------------------------------------
-- Posts
------------------------------------------------------------

namespace Network

/-
  A stream that was submitted with a data provider, for the
  send with the number `send`.  nghttp2 asks the provider for
  more until it sets the flag or the stream is closed.
-/
structure Post where
  send : Nat
  yielded : Bytes := []
  eof : Bool := false
  closed : Bool := false
  deriving DecidableEq, Repr

def Post.finished (post : Post) : Bool :=
  post.eof || post.closed

/-
  A request with the bodies it was given to send, the number
  of `fetchWithBody` jobs that have run, and the streams that
  they submitted.
-/
structure PostRun where
  d : Impl
  bodies : List Bytes := []
  fetched : Nat := 0
  posts : List Post := []

inductive PostEvent
  | send (body : Bytes)
  | job (outcome : JobOutcome)
  | handler (event : SessionEvent)
  | provide
      (stream : Nat)
      (length : Nat)
      (positive : 0 < length)
  | close (stream : Nat)

/- The requests that nghttp2 has taken with a provider. -/
def Impl.providers (d : Impl) : Nat :=
  match d.session with
  | some s => (s.nghttp2.requests.filter (·.body)).length
  | none => 0

namespace PostRun

variable (r : PostRun)

/- `send(body)`, which returns at once without a session. -/
def send (body : Bytes) : PostRun :=
  if ! r.d.service || r.d.session.isNone then r
  else
    { r with
      d := r.d.sendPost body
      bodies := r.bodies ++ [body] }

/- The stream that a `fetchWithBody` job has submitted. -/
def submitted (d' : Impl) : List Post :=
  if r.d.providers < d'.providers then
    [{ send := r.fetched }]
  else []

/- The request has run its first job and become `d'`. -/
def afterJob (d' : Impl) : PostRun :=
  if r.d.serviceStopped then { r with d := d' }
  else
    match r.d.jobs with
    | .fetchWithBody :: _ =>
        { r with
          d := d'
          fetched := r.fetched + 1
          posts := r.posts ++ r.submitted d' }
    | _ => { r with d := d' }

/- nghttp2 calls the data provider of a stream. -/
def provide
    (stream : Nat)
    (length : Nat) : PostRun :=
  match r.posts[stream]? with
  | none => r
  | some post =>
      if post.finished then r
      else
        let (copied, rest, eof) :=
          reciveCallback r.d.body length
        { r with
          d := { r.d with body := rest }
          posts :=
            r.posts.set stream
              { post with
                yielded := post.yielded ++ copied
                eof := eof } }

/- The stream is closed before its body is delivered. -/
def close (stream : Nat) : PostRun :=
  match r.posts[stream]? with
  | none => r
  | some post =>
      { r with
        posts :=
          r.posts.set stream { post with closed := true } }

/- Handle an event. -/
def step (r : PostRun) : PostEvent → Option PostRun
  | .send body => some (r.send body)
  | .job outcome =>
      (r.d.step (.job outcome)).map r.afterJob
  | .handler event =>
      (r.d.step (.handler event)).map
        fun d' => { r with d := d' }
  | .provide stream length _ =>
      some (r.provide stream length)
  | .close stream => some (r.close stream)

/-
  The stream has yielded a prefix of the body of its send,
  and all of it if the flag is set.
-/
def Delivers (post : Post) : Prop :=
  ∃ body, r.bodies[post.send]? = some body ∧
    post.yielded <+: body ∧
    (post.eof = true → post.yielded = body)

def Faithful : Prop :=
  ∀ post ∈ r.posts, r.Delivers post

/- Every state that the step leaves is faithful. -/
def LeavesFaithful (event : PostEvent) : Prop :=
  ∀ r', r.step event = some r' → r'.Faithful

/-
  A send finds no `fetchWithBody` job of another one in the
  queue and all streams finished.
-/
def SendsAlone : PostEvent → Prop
  | .send _ =>
      r.d.jobs.count .fetchWithBody = 0 ∧
        ∀ post ∈ r.posts, post.finished = true
  | _ => True

/- Nothing has been sent. -/
structure Unsent : Prop where
  jobs : r.d.jobs.count .fetchWithBody = 0
  bodies : r.bodies = []
  fetched : r.fetched = 0
  posts : r.posts = []

end PostRun

end Network

------------------------------------------------------------
-- The Data Provider
------------------------------------------------------------

namespace Network

namespace PostRun

variable (r : PostRun)

/- A body on its way through the stream of a post. -/
def bodyPipe (post : Post) : Pipe UInt8 where
  entered := post.yielded ++ r.d.body
  left := post.yielded
  queued := r.d.body
  balanced := rfl

/- A call of the provider moves bytes along the pipe. -/
theorem provide_eq
    {stream length : Nat}
    {post : Post}
    (hPositive : 0 < length)
    (hPost : r.posts[stream]? = some post)
    (hFlows : post.finished = false) :
    r.provide stream length =
      { r with
        d :=
          { r.d with
            body := ((r.bodyPipe post).pop length).queued }
        posts :=
          r.posts.set stream
            { post with
              yielded := ((r.bodyPipe post).pop length).left
              eof := r.d.body.isEmpty } } := by
  simp [provide, hPost, hFlows, bodyPipe,
    reciveCallback_of_pos r.d.body hPositive]

end PostRun

end Network

------------------------------------------------------------
-- Bodies in Order
------------------------------------------------------------

namespace Network

namespace PostRun

/-
  The body in the request is that of the queued job, or of
  the one stream that is not finished.
-/
structure InOrder (r : PostRun) : Prop where
  counted :
    r.bodies.length =
      r.fetched + r.d.jobs.count .fetchWithBody
  faithful : r.Faithful
  queued :
    r.d.jobs.count .fetchWithBody = 0 ∨
      r.d.jobs.count .fetchWithBody = 1 ∧
        (∀ post ∈ r.posts, post.finished = true) ∧
        r.bodies[r.fetched]? = some r.d.body
  flowing :
    ∃ active, ∀ (stream : Nat) (post : Post),
      r.posts[stream]? = some post →
      post.finished = false →
        stream = active ∧
          r.bodies[post.send]? =
            some (post.yielded ++ r.d.body)

variable {r r' : PostRun}

theorem Unsent.inOrder
    (hUnsent : r.Unsent) :
    r.InOrder where
  counted := by
    rw [hUnsent.bodies, hUnsent.fetched, hUnsent.jobs]
    rfl
  faithful := by
    rw [Faithful, hUnsent.posts]
    exact fun post hMem => absurd hMem List.not_mem_nil
  queued := .inl hUnsent.jobs
  flowing := by
    refine ⟨0, ?_⟩
    intro stream post hPost
    simp [hUnsent.posts] at hPost

/- Nothing but the jobs and the body of a request matters. -/
theorem InOrder.congr
    (hInOrder : r.InOrder)
    {d' : Impl}
    (hJobs :
      d'.jobs.count .fetchWithBody =
        r.d.jobs.count .fetchWithBody)
    (hBody : d'.body = r.d.body) :
    { r with d := d' }.InOrder where
  counted := by
    rw [hJobs]
    exact hInOrder.counted
  faithful := hInOrder.faithful
  queued := by
    rw [hJobs, hBody]
    exact hInOrder.queued
  flowing := by
    rw [hBody]
    exact hInOrder.flowing

/- A later send adds a body behind those that are there. -/
theorem getElem?_snoc
    {bodies : List Bytes}
    {body next : Bytes}
    {index : Nat}
    (hBody : bodies[index]? = some body) :
    (bodies ++ [next])[index]? = some body := by
  rw [List.getElem?_append_left
    (List.getElem?_eq_some_iff.mp hBody).1]
  exact hBody

theorem send_inOrder
    (hInOrder : r.InOrder)
    (body : Bytes)
    (hAlone : r.SendsAlone (.send body)) :
    (r.send body).InOrder := by
  unfold send
  split
  · exact hInOrder
  · rename_i hAccepts
    have hPost :
        r.d.sendPost body =
          { r.d with
            body := body
            response := none
            jobs :=
              r.d.jobs ++ [.connect, .fetchWithBody] } := by
      rw [Impl.sendPost, if_neg hAccepts]
    have hCount :
        (r.d.sendPost body).jobs.count .fetchWithBody = 1 := by
      rw [hPost]
      simp [List.count_append, hAlone.1]
    have hFetched : r.bodies.length = r.fetched := by
      rw [hInOrder.counted, hAlone.1, Nat.add_zero]
    refine ⟨?_, ?_, .inr ⟨hCount, hAlone.2, ?_⟩, ⟨0, ?_⟩⟩
    · rw [hCount, List.length_append, hFetched]
      rfl
    · intro post hMem
      rcases hInOrder.faithful post hMem with
        ⟨own, hOwn, hPrefix, hEof⟩
      exact ⟨own, getElem?_snoc hOwn, hPrefix, hEof⟩
    · rw [hPost, ← hFetched]
      exact List.getElem?_concat_length
    · intro stream post hSome hFlows
      have hFinished :=
        hAlone.2 post (List.mem_of_getElem? hSome)
      exact absurd (hFlows.symm.trans hFinished) (by decide)

/- Only the stream that is not finished takes bytes. -/
theorem provide_inOrder
    (hInOrder : r.InOrder)
    (stream : Nat)
    {length : Nat}
    (hPositive : 0 < length) :
    (r.provide stream length).InOrder := by
  cases hPost : r.posts[stream]? with
  | none =>
      have hSame : r.provide stream length = r := by
        simp [provide, hPost]
      exact hSame.symm ▸ hInOrder
  | some post =>
      cases hFlows : post.finished with
      | true =>
          have hSame : r.provide stream length = r := by
            simp [provide, hPost, hFlows]
          exact hSame.symm ▸ hInOrder
      | false =>
          rw [r.provide_eq hPositive hPost hFlows]
          rcases hInOrder.flowing with ⟨active, hActive⟩
          rcases hActive stream post hPost hFlows with
            ⟨rfl, hBody⟩
          let pipe := (r.bodyPipe post).pop length
          refine ⟨hInOrder.counted, ?_, ?_, ⟨stream, ?_⟩⟩
          · intro next hMem
            rcases List.mem_or_eq_of_mem_set hMem with
              hOld | rfl
            · exact hInOrder.faithful next hOld
            · refine ⟨pipe.entered, hBody,
                pipe.left_isPrefix, ?_⟩
              intro hEof
              apply pipe.left_eq_entered
              have hEmpty := List.isEmpty_iff.mp hEof
              simp [pipe, bodyPipe, hEmpty]
          · apply hInOrder.queued.imp_right
            rintro ⟨_, hAll, _⟩
            have hFinished :=
              hAll post (List.mem_of_getElem? hPost)
            exact absurd (hFlows.symm.trans hFinished)
              (by decide)
          · intro other next hSome hOpen
            by_cases hSame : stream = other
            · subst hSame
              have hNext := List.getElem?_eq_some_iff.mp hPost
              rw [List.getElem?_set_self hNext.1,
                Option.some.injEq] at hSome
              subst hSome
              exact ⟨rfl, hBody.trans
                (congrArg some pipe.balanced)⟩
            · rw [List.getElem?_set_ne hSame] at hSome
              have hOther := hActive other next hSome hOpen
              exact absurd hOther.1.symm hSame

theorem close_inOrder
    (hInOrder : r.InOrder)
    (stream : Nat) :
    (r.close stream).InOrder := by
  cases hPost : r.posts[stream]? with
  | none =>
      have hSame : r.close stream = r := by
        simp [close, hPost]
      exact hSame.symm ▸ hInOrder
  | some post =>
      have hClose :
          r.close stream =
            { r with
              posts :=
                r.posts.set stream
                  { post with closed := true } } := by
        simp [close, hPost]
      have hMember := List.mem_of_getElem? hPost
      rcases hInOrder.flowing with ⟨active, hActive⟩
      rw [hClose]
      refine ⟨hInOrder.counted, ?_, ?_, ⟨active, ?_⟩⟩
      · intro next hMem
        rcases List.mem_or_eq_of_mem_set hMem with
          hOld | rfl
        · exact hInOrder.faithful next hOld
        · exact hInOrder.faithful post hMember
      · apply hInOrder.queued.imp_right
        rintro ⟨hCount, hAll, hBody⟩
        refine ⟨hCount, ?_, hBody⟩
        intro next hMem
        rcases List.mem_or_eq_of_mem_set hMem with
          hOld | rfl
        · exact hAll next hOld
        · simp [Post.finished]
      · intro other next hSome hOpen
        by_cases hSame : stream = other
        · subst hSame
          have hNext := List.getElem?_eq_some_iff.mp hPost
          rw [List.getElem?_set_self hNext.1,
            Option.some.injEq] at hSome
          subst hSome
          simp [Post.finished] at hOpen
        · rw [List.getElem?_set_ne hSame] at hSome
          exact hActive other next hSome hOpen

end PostRun

end Network

------------------------------------------------------------
-- Jobs
------------------------------------------------------------

namespace Network

namespace Impl

variable {d d' : Impl}

/- A job is taken from the queue and leaves the body alone. -/
theorem nextJob_jobs
    {outcome : JobOutcome}
    {job : Job}
    {jobs : List Job}
    (hJobs : d.jobs = job :: jobs)
    (hStep : d.nextJob outcome = some d') :
    d'.jobs = jobs ∧ d'.body = d.body := by
  simp only [nextJob, hJobs] at hStep
  rcases runJob_cases hStep with ⟨s, _, rfl | hRuns⟩
  · exact ⟨rfl, rfl⟩
  · rcases hRuns.runsSession with ⟨_, _, _, _, _, rfl⟩
    exact ⟨rfl, rfl⟩

theorem handler_jobs
    {event : SessionEvent}
    (hStep : d.step (.handler event) = some d') :
    d'.jobs = d.jobs ∧ d'.body = d.body := by
  rcases unlessStopped_cases hStep with rfl | ⟨_, hRun⟩
  · exact ⟨rfl, rfl⟩
  · rcases runHandler_cases hRun with rfl | ⟨s, _, hRuns⟩
    · exact ⟨rfl, rfl⟩
    · rcases hRuns.runsSession with ⟨_, _, _, _, _, rfl⟩
      exact ⟨rfl, rfl⟩

end Impl

namespace PostRun

variable {r r' : PostRun}

/- A job submits at most one stream, for its own send. -/
theorem submitted_getElem?
    {d' : Impl}
    {index : Nat}
    {post : Post}
    (hPost : (r.submitted d')[index]? = some post) :
    index = 0 ∧ post = { send := r.fetched } := by
  unfold submitted at hPost
  split at hPost
  · cases index with
    | zero => exact ⟨rfl, (Option.some.inj hPost).symm⟩
    | succ index => simp at hPost
  · simp at hPost

/- The stream of the queued job takes the body over. -/
theorem fetched_inOrder
    (hInOrder : r.InOrder)
    {d' : Impl}
    {jobs : List Job}
    (hJobs : r.d.jobs = .fetchWithBody :: jobs)
    (hRest : d'.jobs = jobs)
    (hBody : d'.body = r.d.body) :
    { r with
      d := d'
      fetched := r.fetched + 1
      posts := r.posts ++ r.submitted d' }.InOrder := by
  have hCount :
      r.d.jobs.count .fetchWithBody =
        jobs.count .fetchWithBody + 1 := by
    rw [hJobs, List.count_cons_self]
  rcases hInOrder.queued with hNone | ⟨hOne, hAll, hQueued⟩
  · omega
  · have hLeft : d'.jobs.count .fetchWithBody = 0 := by
      rw [hRest]
      omega
    refine ⟨?_, ?_, .inl hLeft, ⟨r.posts.length, ?_⟩⟩
    · have hCounted := hInOrder.counted
      simp only [hLeft]
      omega
    · intro post hMem
      rcases List.mem_append.mp hMem with hOld | hNew
      · exact hInOrder.faithful post hOld
      · rcases List.mem_iff_getElem?.mp hNew with
          ⟨index, hPost⟩
        rcases submitted_getElem? hPost with ⟨_, rfl⟩
        exact ⟨r.d.body, hQueued, List.nil_prefix, nofun⟩
    · intro stream post hSome hOpen
      rcases Nat.lt_or_ge stream r.posts.length with
        hOld | hNew
      · rw [List.getElem?_append_left hOld] at hSome
        have hFinished :=
          hAll post (List.mem_of_getElem? hSome)
        exact absurd (hOpen.symm.trans hFinished)
          (by decide)
      · rw [List.getElem?_append_right hNew] at hSome
        rcases submitted_getElem? hSome with ⟨hZero, rfl⟩
        exact ⟨by omega, by rw [hBody]; exact hQueued⟩

theorem job_inOrder
    (hInOrder : r.InOrder)
    {outcome : JobOutcome}
    (hStep : r.step (.job outcome) = some r') :
    r'.InOrder := by
  rcases Option.map_eq_some_iff.mp hStep with
    ⟨d', hJob, rfl⟩
  simp only [Impl.step, Impl.unlessStopped] at hJob
  unfold afterJob
  split
  · rename_i hStopped
    rw [if_pos hStopped, Option.some.injEq] at hJob
    exact hJob ▸ hInOrder
  · rename_i hGoesOn
    rw [if_neg hGoesOn] at hJob
    cases hJobs : r.d.jobs with
    | nil =>
        simp only [Impl.nextJob, hJobs] at hJob
        exact Option.some.inj hJob ▸ hInOrder
    | cons job jobs =>
        rcases Impl.nextJob_jobs hJobs hJob with
          ⟨hRest, hBody⟩
        cases job with
        | fetchWithBody =>
            exact fetched_inOrder hInOrder hJobs hRest hBody
        | connect =>
            refine hInOrder.congr ?_ hBody
            rw [hRest, hJobs]
            exact (List.count_cons_of_ne (by decide)).symm
        | fetch =>
            refine hInOrder.congr ?_ hBody
            rw [hRest, hJobs]
            exact (List.count_cons_of_ne (by decide)).symm

end PostRun

end Network

------------------------------------------------------------
-- Runs
------------------------------------------------------------

namespace Network

namespace PostRun

variable {r r' : PostRun}

theorem step_inOrder
    (hInOrder : r.InOrder)
    {event : PostEvent}
    (hAlone : r.SendsAlone event)
    (hStep : r.step event = some r') :
    r'.InOrder := by
  cases event with
  | send body =>
      rw [← Option.some.inj hStep]
      exact send_inOrder hInOrder body hAlone
  | job outcome => exact job_inOrder hInOrder hStep
  | handler event =>
      rcases Option.map_eq_some_iff.mp hStep with
        ⟨d', hHandler, rfl⟩
      rcases Impl.handler_jobs hHandler with ⟨hJobs, hBody⟩
      exact hInOrder.congr (by rw [hJobs]) hBody
  | provide stream length positive =>
      rw [← Option.some.inj hStep]
      exact provide_inOrder hInOrder stream positive
  | close stream =>
      rw [← Option.some.inj hStep]
      exact close_inOrder hInOrder stream

/-
  In a run in which every send finds the bodies before it
  delivered, every stream yields the body of its own send.
-/
theorem faithful_along
    (r : PostRun)
    (hUnsent : r.Unsent)
    (events : List PostEvent)
    (hAlone : Transition.Along step SendsAlone r events) :
    Transition.Along step LeavesFaithful r events := by
  refine Transition.along_of_step (I := InOrder)
    ?_ ?_ hUnsent.inOrder hAlone
  · intro r event hInOrder hAlone r' hStep
    exact (step_inOrder hInOrder hAlone hStep).faithful
  · intro r event r' hInOrder hAlone hStep
    exact step_inOrder hInOrder hAlone hStep

/- A request that has been opened to post something. -/
def openedPost : PostRun where
  d :=
    ({} : Impl).openWith (ascii "POST")
      (ascii "https://a.com/") true Impl.freshSetup

theorem openedPost_unsent :
    openedPost.Unsent :=
  ⟨by decide +kernel, rfl, rfl, rfl⟩

/- Run the two jobs of a send. -/
def submitJobs (id : Int) : List PostEvent :=
  [.job { connection := HttpTlsSession.h2Connection },
    .job { submission := { assignedId := id } }]

/- Ask a stream for all of its body and for its end. -/
def deliver (stream : Nat) : List PostEvent :=
  [.provide stream 8 (by decide),
    .provide stream 8 (by decide)]

def firstPost : List PostEvent :=
  .send [1, 2] :: (submitJobs 1 ++ deliver 0)

def secondPost : List PostEvent :=
  .send [3] :: (submitJobs 3 ++ deliver 1)

theorem faithful_along_two_posts :
    Transition.Along step LeavesFaithful openedPost
      (firstPost ++ secondPost) := by
  apply faithful_along openedPost openedPost_unsent
  have hQuiet (r : PostRun) (id : Int) (stream : Nat) :
      Transition.Along step SendsAlone r
        (submitJobs id ++ deliver stream) :=
    ⟨trivial, fun _ _ => ⟨trivial, fun _ _ =>
      ⟨trivial, fun _ _ => ⟨trivial, fun _ _ => trivial⟩⟩⟩⟩
  have hFirst :
      (Transition.exec step openedPost firstPost).map
          (fun r =>
            (r.d.jobs.count .fetchWithBody,
              r.posts.all (·.finished))) =
        some (0, true) := by
    decide +kernel
  apply Transition.Along.append
  · refine ⟨⟨openedPost_unsent.jobs, ?_⟩,
      fun _ _ => hQuiet _ _ _⟩
    exact fun post hMem => absurd hMem List.not_mem_nil
  · intro middle hRun
    rw [hRun, Option.map_some, Option.some.injEq,
      Prod.mk.injEq, List.all_eq_true] at hFirst
    exact ⟨hFirst, fun _ _ => hQuiet _ _ _⟩

/- The stream of the first send yields the second body. -/
theorem second_send_not_faithful :
    ¬ Transition.Along step LeavesFaithful openedPost
      ([.send [1, 2], .send [3]] ++ submitJobs 1 ++
        [.provide 0 8 (by decide)]) := by
  intro hAlong
  have hEnd :
      ((Transition.exec step openedPost
        ([.send [1, 2], .send [3]] ++ submitJobs 1)).map
          fun r =>
            (r.step (.provide 0 8 (by decide))).map
              fun r' => (r'.bodies, r'.posts)) =
        some
          (some
            ([[1, 2], [3]],
              [{ send := 0, yielded := [3] }])) := by
    decide +kernel
  rcases Option.map_eq_some_iff.mp hEnd with
    ⟨r, hRun, hNext⟩
  rcases Option.map_eq_some_iff.mp hNext with
    ⟨r', hStep, hState⟩
  simp only [Prod.mk.injEq] at hState
  have hFaithful := hAlong.last hRun r' hStep
  rw [Faithful, hState.2] at hFaithful
  rcases hFaithful _ (List.mem_singleton_self _) with
    ⟨body, hBody, hPrefix, _⟩
  rw [hState.1] at hBody
  cases hBody
  exact absurd hPrefix (by decide)

end PostRun

end Network
