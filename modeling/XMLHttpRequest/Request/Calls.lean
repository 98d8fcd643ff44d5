import XMLHttpRequest.Request.Pointers

/-
  What the calls of the user do that neither open nor stop.

  A send posts the connection and the fetch behind what is
  queued and takes the response back.  Apart from that such a
  call changes settings only.

  Key definitions include:
    * `Network.Impl.Called`

  Key theorems include:
    * `Network.Impl.sets_called`
-/

------------------------------------------------------------
-- Calls
------------------------------------------------------------

namespace Network

namespace Impl

/- The jobs of a send, if the call `posts` them. -/
def postedJobs (posts : Bool) (job : Job) : List Job :=
  if posts then [.connect, job] else []

/- What a call leaves that posts its jobs, or does not. -/
structure Called (posts : Bool) (d d' : Impl) : Prop where
  timer : d'.timer = d.timer
  readyState : d'.readyState = d.readyState
  response : d'.response = if posts then none else d.response
  jobs :
    ∃ job, job ≠ .connect ∧
      d'.jobs = d.jobs ++ postedJobs posts job

variable {d d' : Impl}

/- A call that posts nothing. -/
theorem called_of_same
    (hTimer : d'.timer = d.timer)
    (hState : d'.readyState = d.readyState)
    (hResponse : d'.response = d.response)
    (hJobs : d'.jobs = d.jobs) :
    Called false d d' where
  timer := hTimer
  readyState := hState
  response := hResponse
  jobs := by
    refine ⟨.fetch, ?_, ?_⟩
    · simp
    · rw [hJobs]
      exact (List.append_nil _).symm

theorem sendPost_called
    (d : Impl)
    (body : Bytes) :
    Called (d.serves (.sendBody body)) d (d.sendPost body) := by
  have hFetch : Job.fetchWithBody ≠ .connect := by simp
  unfold sendPost serves
  cases hService : d.service with
  | false => exact called_of_same rfl rfl rfl rfl
  | true =>
      cases hSession : d.session with
      | none => exact called_of_same rfl rfl rfl rfl
      | some s => exact ⟨rfl, rfl, rfl, _, hFetch, rfl⟩

theorem sendGet_called (d : Impl) :
    Called (d.service && d.session.isSome) d d.sendGet := by
  have hFetch : Job.fetch ≠ .connect := by simp
  unfold sendGet
  cases hService : d.service with
  | false => exact called_of_same rfl rfl rfl rfl
  | true =>
      cases hSession : d.session with
      | none => exact called_of_same rfl rfl rfl rfl
      | some s => exact ⟨rfl, rfl, rfl, _, hFetch, rfl⟩

theorem send_called (d : Impl) :
    Called (d.serves .send) d d.send := by
  unfold send serves
  cases hMethod : methodFromString d.method with
  | get =>
      have hKnown : decide (Method.get ≠ .unknown) = true := by
        decide
      rw [hKnown, Bool.and_true]
      exact d.sendGet_called
  | post =>
      have hKnown : decide (Method.post ≠ .unknown) = true := by
        decide
      rw [hKnown, Bool.and_true]
      exact d.sendPost_called []
  | unknown =>
      have hUnknown :
          decide (Method.unknown ≠ .unknown) = false := by
        decide
      rw [hUnknown, Bool.and_false]
      exact called_of_same rfl rfl rfl rfl

theorem sendWithCallback_called
    (d : Impl)
    (cb : UserFunction) :
    Called (d.serves (.sendWithCallback cb)) d
      (d.sendWithCallback cb) := by
  unfold sendWithCallback
  split
  · rename_i hNone
    have hNothing :
        d.serves (.sendWithCallback cb) = false := by
      unfold serves
      rw [hNone]
      simp
    rw [hNothing]
    exact called_of_same rfl rfl rfl rfl
  · rename_i s hSession
    have hPosts :
        (d.setOnReadyCallback cb).serves .send =
          d.serves (.sendWithCallback cb) := by
      unfold serves setOnReadyCallback
      rw [hSession]
      rfl
    have hSent := (d.setOnReadyCallback cb).send_called
    rw [hPosts] at hSent
    exact ⟨hSent.timer, hSent.readyState, hSent.response,
      hSent.jobs⟩

/- All that such a call does to what is not a setting. -/
theorem sets_called
    {event : RequestEvent}
    (hSets : event.sets = true)
    (hStep : d.step event = some d') :
    Called (d.serves event) d d' := by
  cases event with
  | send =>
      rw [← Option.some.inj hStep]
      exact d.send_called
  | sendWithCallback cb =>
      rw [← Option.some.inj hStep]
      exact d.sendWithCallback_called cb
  | sendBody body =>
      rw [← Option.some.inj hStep]
      exact d.sendPost_called body
  | setTimeout milliseconds =>
      rw [← Option.some.inj hStep]
      unfold setTimeout
      split
      · exact called_of_same rfl rfl rfl rfl
      · exact called_of_same rfl rfl rfl rfl
  | overrideMimeType mime =>
      rcases Option.map_eq_some_iff.mp hStep with ⟨_, _, rfl⟩
      exact called_of_same rfl rfl rfl rfl
  | setRequestHeader name value =>
      rw [← Option.some.inj hStep]
      exact called_of_same rfl rfl rfl rfl
  | setOnTimeoutCallback cb =>
      rw [← Option.some.inj hStep]
      exact called_of_same rfl rfl rfl rfl
  | setOnReadyCallback cb =>
      rw [← Option.some.inj hStep]
      exact called_of_same rfl rfl rfl rfl
  | setOnStateChangedCallback cb =>
      rw [← Option.some.inj hStep]
      exact called_of_same rfl rfl rfl rfl
  | _ => cases hSets

end Impl

end Network
