import XMLHttpRequest.Library.Monitor
import XMLHttpRequest.Request.Calls
import XMLHttpRequest.Request.Submissions

/-
  The jobs that a request posts to its io_service.

  A send posts one fetch, and a fetch that is run gives
  nghttp2 one request at most.

  Key definitions include:
    * `Network.Impl.fetches`
    * `Network.Impl.stepCounted`

  Key theorems include:
    * `Network.Impl.nextJob_spends`
    * `Network.Impl.step_spends`
    * `Network.Impl.submitted_once_run`
-/

------------------------------------------------------------
-- The Queue
------------------------------------------------------------

namespace Network

/- The handler calls `submit`, which none of the library does. -/
def RequestEvent.submitsItself : RequestEvent → Bool
  | .handler (.submit _ _) => true
  | _ => false

namespace Impl

/- The fetches that are still queued. -/
def fetches (d : Impl) : Nat :=
  d.jobs.countP fun job => job ≠ .connect

/-
  The requests that nghttp2 was given and those that it may
  be given yet.
-/
def outgoing (d : Impl) : Nat :=
  d.requests.length + d.fetches

/- Neither the queue nor what nghttp2 was given changes. -/
structure SameOutgoing (d d' : Impl) : Prop where
  requests : d'.requests = d.requests
  jobs : d'.jobs = d.jobs

variable {d d' d'' : Impl}

theorem SameOutgoing.trans
    (hFirst : SameOutgoing d d')
    (hSecond : SameOutgoing d' d'') :
    SameOutgoing d d'' :=
  ⟨hSecond.requests.trans hFirst.requests,
    hSecond.jobs.trans hFirst.jobs⟩

theorem SameOutgoing.outgoing_eq
    (hSame : SameOutgoing d d') :
    d'.outgoing = d.outgoing := by
  unfold outgoing fetches
  rw [hSame.requests, hSame.jobs]

theorem callStateChange_jobs
    (d : Impl)
    (state : ReadyState) :
    (d.callStateChange state).jobs = d.jobs := by
  rcases d.callStateChange_cases state with
    ⟨_, hSame⟩ | ⟨_, _, _, _, hFrame⟩
  · rw [hSame]
  · rw [hFrame]

theorem setup_sameOutgoing
    (d : Impl)
    (setup : Setup) :
    SameOutgoing d (d.setup setup) := by
  refine ⟨(d.setup_keepsRequests setup).2, ?_⟩
  generalize hStart : d.setup setup = started
  cases setUp_of_eq hStart with
  | present _ => rfl
  | plain _ _ => rfl
  | created _ _ _ => rfl
  | listening _ _ _ => rfl

/- An open posts nothing. -/
theorem openPlain_sameOutgoing
    (d : Impl)
    (setup : Setup) :
    SameOutgoing d (d.openPlain setup) := by
  refine ⟨(d.openPlain_keepsRequests setup).2, ?_⟩
  have hTimer :
      (d.setup setup).setupTimer.jobs =
        (d.setup setup).jobs := by
    unfold setupTimer
    split <;> rfl
  unfold openPlain
  split
  · rfl
  · rw [callStateChange_jobs, hTimer,
      (d.setup_sameOutgoing setup).jobs]

theorem openWith_sameOutgoing
    (d : Impl)
    (method uri : Bytes)
    (async : Bool)
    (setup : Setup) :
    SameOutgoing d (d.openWith method uri async setup) := by
  unfold openWith prepare
  cases proccessUri uri with
  | none => exact ⟨rfl, rfl⟩
  | some elements =>
      have hOpened := openPlain_sameOutgoing
        { d with
          isAsync := async
          addr := elements.addr
          port := elements.port
          proto := elements.protocol
          urn := elements.urn
          method := toUpper method } setup
      exact ⟨hOpened.requests, hOpened.jobs⟩

theorem runJob_jobs
    {outcome : JobOutcome}
    {job : Job}
    (hJob : d.runJob outcome job = some d') :
    d'.jobs = d.jobs := by
  rcases runJob_cases hJob with ⟨s, _, rfl | hRuns⟩
  · rfl
  · rcases hRuns.runsSession with ⟨_, _, _, _, _, rfl⟩
    rfl

/- A job is taken from the queue when it is run. -/
theorem nextJob_dequeues
    {outcome : JobOutcome}
    (hJob : d.nextJob outcome = some d') :
    d'.jobs = d.jobs.tail := by
  unfold nextJob at hJob
  split at hJob
  · rename_i hEmpty
    rw [← Option.some.inj hJob, hEmpty]
    rfl
  · rename_i job jobs hJobs
    rw [runJob_jobs hJob, hJobs]
    rfl

/- The fetch that submits is no longer queued. -/
theorem nextJob_spends
    {outcome : JobOutcome}
    (hGoesOn : d.serviceStopped = false)
    (hJob : d.nextJob outcome = some d') :
    d'.outgoing ≤ d.outgoing := by
  have hJobs := nextJob_dequeues hJob
  have hFewer : d'.fetches ≤ d.fetches := by
    unfold fetches
    rw [hJobs]
    exact (List.tail_sublist d.jobs).countP_le
  have hRequests := (nextJob_given hGoesOn hJob).2
  cases hGiven : d.given (.job outcome) with
  | nil =>
      unfold outgoing
      rw [hRequests, hGiven, List.append_nil]
      exact Nat.add_le_add_left hFewer _
  | cons request rest =>
      have hMem : request ∈ d.given (.job outcome) := by
        rw [hGiven]
        exact List.mem_cons_self
      rcases submits_of_given hMem with
        ⟨_, s, u, body, hEvent, hFetches⟩
      cases hEvent
      unfold outgoing fetches
      rw [hRequests, hFetches.given_eq, List.length_append,
        hJobs]
      have hKind := hFetches.job
      cases hQueue : d.jobs with
      | nil =>
          rw [hQueue] at hKind
          simp at hKind
      | cons job jobs =>
          rw [hQueue] at hKind
          have hFetch : job ≠ .connect := by
            rintro rfl
            cases body <;> simp at hKind
          rw [List.countP_cons_of_pos (by simpa using hFetch)]
          simp only [List.tail_cons, List.length_singleton]
          omega

end Impl

end Network

------------------------------------------------------------
-- Runs
------------------------------------------------------------

namespace Network

namespace Impl

variable {d d' : Impl}

/- An event posts a fetch at most, where it is a send. -/
theorem step_spends
    {event : RequestEvent}
    (hLibrary : event.submitsItself = false)
    (hStep : d.step event = some d') :
    d'.outgoing ≤ d.outgoing + (d.serves event).toNat := by
  have hSame
      (hKept : SameOutgoing d d') :
      d'.outgoing ≤ d.outgoing + (d.serves event).toNat := by
    rw [hKept.outgoing_eq]
    exact Nat.le_add_right _ _
  by_cases hSets : event.sets = true
  · rcases (sets_called hSets hStep).jobs with ⟨job, _, hJobs⟩
    have hRequests := (settled_of_sets hSets hStep).requests
    unfold outgoing fetches
    rw [hRequests, hJobs, List.countP_append, Nat.add_assoc]
    apply Nat.add_le_add_left
    apply Nat.add_le_add_left
    cases d.serves event with
    | false => exact Nat.le_refl _
    | true =>
        cases job with
        | connect => exact Nat.zero_le _
        | fetch => exact Nat.le_refl _
        | fetchWithBody => exact Nat.le_refl _
  · cases event with
    | openPlain setup =>
        rw [← Option.some.inj hStep] at hSame ⊢
        exact hSame (d.openPlain_sameOutgoing setup)
    | openWith method uri async setup =>
        rw [← Option.some.inj hStep] at hSame ⊢
        exact hSame
          (d.openWith_sameOutgoing method uri async setup)
    | openAuth method uri async user password setup =>
        have hOpened :=
          d.openWith_sameOutgoing method uri async setup
        rw [← Option.some.inj hStep] at hSame ⊢
        exact hSame ⟨hOpened.requests, hOpened.jobs⟩
    | abort =>
        rcases abort_cases hStep with ⟨_, _, hEnd⟩
        exact hSame
          ⟨(abort_keepsRequests hStep).2, by rw [hEnd]⟩
    | job outcome =>
        rcases unlessStopped_cases hStep with
          rfl | ⟨hGoesOn, hJob⟩
        · exact Nat.le_add_right _ _
        · exact nextJob_spends hGoesOn hJob
    | handler handled =>
        rcases unlessStopped_cases hStep with rfl | ⟨_, hRun⟩
        · exact Nat.le_add_right _ _
        · refine hSame ⟨(runHandler_keepsRequests ?_ hRun).2, ?_⟩
          · rintro arguments submission rfl
            cases hLibrary
          · rcases runHandler_cases hRun with
              rfl | ⟨_, _, hRuns⟩
            · rfl
            · rcases hRuns.runsSession with
                ⟨_, _, _, _, _, rfl⟩
              rfl
    | timer code =>
        rcases unlessStopped_cases hStep with rfl | ⟨_, hTimer⟩
        · exact Nat.le_add_right _ _
        · refine hSame ⟨(timerDone_keepsRequests hTimer).2, ?_⟩
          rcases timerDone_cases hTimer with
            rfl | ⟨_, rfl | ⟨_, _, _, _, rfl⟩⟩ <;> rfl
    | timerCancelled =>
        rcases unlessStopped_cases hStep with rfl | ⟨_, hTimer⟩
        · exact Nat.le_add_right _ _
        · refine hSame
            ⟨(timerCancelled_keepsRequests hTimer).2, ?_⟩
          rcases timerCancelled_cases hTimer with
            rfl | ⟨_, rfl⟩ <;> rfl
    | _ => exact absurd rfl hSets

/- What can happen to a request, out of reach of `submit`. -/
abbrev LibraryEvent :=
  { event : RequestEvent // event.submitsItself = false }

/- A request, and how many sends have posted their jobs. -/
def stepCounted :
    Impl × Nat → LibraryEvent → Option (Impl × Nat) :=
  Transition.observed (fun d event => d.step event.1)
    fun sends d event _ => sends + (d.serves event.1).toNat

theorem construction_outgoing (construction : Construction) :
    construction.request.outgoing = 0 := by
  have hCreate
      (method url : Bytes)
      (async : Bool)
      (setup : Setup) :
      (create method url async setup).outgoing = 0 := by
    have hPrepared :
        (({} : Impl).prepare method url async).1.outgoing =
          0 := by
      unfold prepare
      simp only
      split <;> rfl
    unfold create
    rw [(setup_sameOutgoing _ setup).outgoing_eq, hPrepared]
  cases construction with
  | empty => rfl
  | create method url async setup =>
      exact hCreate method url async setup
  | createFromView method url async setup =>
      exact hCreate _ _ async setup

/-
  However a request is constructed and used, nghttp2 is given
  no more requests than sends have posted their jobs, those
  that are still queued included: none is submitted without a
  send, and none twice.
-/
theorem submitted_once_run
    (construction : Construction)
    {events : List LibraryEvent}
    {counted : Impl × Nat}
    (hRun :
      Transition.exec stepCounted (construction.request, 0)
        events = some counted) :
    counted.1.requests.length + counted.1.fetches ≤
      counted.2 := by
  refine Transition.invariant
    (I := fun counted => counted.1.outgoing ≤ counted.2)
    ?_ ?_ (Transition.along_true _ _) hRun
  · intro before event after hBefore _ hStep
    rcases Transition.observed_eq_some_iff.mp hStep with
      ⟨hNext, hCount⟩
    have hSpends := step_spends event.2 hNext
    rw [hCount]
    exact hSpends.trans (Nat.add_le_add_right hBefore _)
  · exact (construction_outgoing construction).le

/- A request is opened, sends, and runs its two jobs. -/
def sendingRun : List LibraryEvent :=
  [⟨openRoot true, rfl⟩, ⟨.send, rfl⟩,
    ⟨.job { connection := HttpTlsSession.h2Connection }, rfl⟩,
    ⟨.job { submission := { assignedId := 1 } }, rfl⟩]

theorem submitted_once_run_sending :
    ∃ counted,
      Transition.exec stepCounted
          (Construction.empty.request, 0) sendingRun =
        some counted ∧
      counted.1.requests.length + counted.1.fetches ≤
        counted.2 := by
  rcases Option.isSome_iff_exists.mp
      (show
        (Transition.exec
          (fun (d : Impl) (event : LibraryEvent) =>
            d.step event.1) {} sendingRun).isSome = true
        from rfl) with ⟨d, hRun⟩
  rcases Transition.exec_observed hRun 0 with
    ⟨sends, hCounted⟩
  exact ⟨(d, sends), hCounted,
    submitted_once_run .empty hCounted⟩

end Impl

end Network
